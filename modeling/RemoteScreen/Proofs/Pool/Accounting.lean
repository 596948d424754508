import RemoteScreen.Proofs.Pool.Refinement

namespace RemoteScreen

namespace Pool

variable {p p' : Pool} {place : SlotState → List Nat} {lease : Lease} {slot : Slot}
  {frame : Octets} {index size : Nat}

theorem stateOf?_eq_some_iff {s : SlotState} :
    p.stateOf? index = some s ↔ ∃ slot, p.slots[index]? = some slot ∧ slot.state = s := by
  rw [stateOf?, Option.map_eq_some_iff]

-- A place has the slots in its state, each once.
theorem Placed.perm_findIdxs (h : p.Placed place) (s : SlotState) :
    (place s).Perm (p.slots.findIdxs (·.state = s)) := by
  rw [List.perm_ext_iff_of_nodup (h.nodup s) List.nodup_findIdxs]
  intro i
  rw [h.mem_iff, stateOf?_eq_some_iff, List.mem_findIdxs_iff_exists_getElem_pos]
  simp [List.getElem?_eq_some_iff]

theorem Placed.length_eq (h : p.Placed place) (s : SlotState) : (place s).length = p.count s :=
  (h.perm_findIdxs s).length_eq.trans List.length_findIdxs

theorem Kept.of_head (k : p.Kept place) (chain : Chain) (h : p.head chain = some index) :
    ∃ slot, p.slots[index]? = some slot ∧ slot.state = chain.state := by
  have hl := k.linked chain
  rw [h] at hl
  have ⟨slot, _, hb, hs, _⟩ := hl.of_some
  exact ⟨slot, hs, k.placed.state_eq (hb ▸ List.mem_cons_self) hs⟩

-- The links lead nowhere just if no slot is in the state that they link.
theorem Kept.head_eq_none_iff (k : p.Kept place) (chain : Chain) :
    p.head chain = none ↔ ∀ slot ∈ p.slots, slot.state ≠ chain.state := by
  constructor
  case mp =>
    intro h slot hm hs
    have hl := k.linked chain
    rw [h] at hl
    have ⟨i, hi⟩ := List.getElem?_of_mem hm
    have hp := k.placed.mem_iff.mpr <| stateOf?_eq_some_iff.mpr ⟨slot, hi, hs⟩
    generalize place chain.state = indices at hl hp
    cases hl
    contradiction
  case mpr =>
    intro h
    cases ht : p.head chain
    case none => rfl
    case some index =>
      have ⟨slot, hs, hc⟩ := k.of_head chain ht
      exact absurd hc <| h slot <| List.mem_of_getElem? hs

theorem acquire_eq (hn : size ≤ p.slotCapacity) (ht : p.free = some index)
    (hs : p.slots[index]? = some slot) :
    p.acquire size = (.ok ⟨index, size, slot.storage⟩, { p with
      slots    := p.slots.set index ⟨.pending, slot.length, none, []⟩
      free     := slot.next
      accepted := p.accepted + 1 }) := by
  have hp := pop?_eq (show p.head .free = some index from ht) hs .pending
  rw [acquire, if_neg (Nat.not_lt.mpr hn), hp]
  rfl

theorem receive_eq (hn : frame.length ≤ p.slotCapacity) (ht : p.free = some index)
    (hs : p.slots[index]? = some slot) :
    p.receive frame = (.ok (), { p with
      slots    := p.slots.set index ⟨.ready, frame.length, p.ready, slot.storage.overwrite 0 frame⟩
      free     := slot.next
      ready    := some index
      accepted := p.accepted + 1 }) := by
  rw [receive, acquire_eq hn ht hs]
  simp [publish, push, Lease.fill, setHead, head, Chain.state]

-- A frame that comes in leaves what a request for its buffer leaves, or publishes the buffer.
theorem pool_receive (p : Pool) (frame : Octets) :
    (p.receive frame).2 = (p.acquire frame.length).2 ∨
      ∃ lease, (p.receive frame).2 = (p.acquire frame.length).2.publish lease := by
  rw [receive]
  obtain ⟨_ | lease, p'⟩ := p.acquire frame.length
  case error => exact .inl rfl
  case ok    => exact .inr ⟨_, rfl⟩

theorem contents_overwrite (storage : Octets) :
    (⟨index, frame.length, storage.overwrite 0 frame⟩ : Lease).contents = frame := by
  simp [Lease.contents, Octets.overwrite]

-- The slot on top of the free ones goes to the producer.
structure Lends (p : Pool) (lease : Lease) (p' : Pool) : Prop where
  top      : p.free = some lease.index
  slot     : ∃ slot, p.slots[lease.index]? = some slot ∧ slot.state = .free ∧
    lease.storage = slot.storage ∧ p'.free = slot.next
  pending  : p'.stateOf? lease.index = some .pending
  others   : ∀ i, i ≠ lease.index → p'.slots[i]? = p.slots[i]?
  ready    : p'.ready = p.ready
  accepted : p'.accepted = p.accepted + 1
  dropped  : p'.dropped = p.dropped

-- The slot on top of the free ones has the frame in it, and goes on top of those that are ready.
structure Publishes (p : Pool) (frame : Octets) (p' : Pool) : Prop where
  top      : ∃ lease rest, p'.takeReady? = some (lease, rest) ∧ lease.contents = frame ∧
    rest.ready = p.ready ∧ p.free = some lease.index ∧ p.stateOf? lease.index = some .free ∧
    ∀ i, i ≠ lease.index → p'.slots[i]? = p.slots[i]?
  count    : p'.count .ready = p.count .ready + 1
  accepted : p'.accepted = p.accepted + 1
  dropped  : p'.dropped = p.dropped

-- What a request for a buffer comes to.
inductive Outcome (p : Pool) (size : Nat) : Except Fault Lease × Pool → Prop
  | tooLarge : p.slotCapacity < size →
    Outcome p size (.error (.frameTooLarge size p.slotCapacity), p.countDropped)
  | exhausted : size ≤ p.slotCapacity → (∀ slot ∈ p.slots, slot.state ≠ .free) →
    Outcome p size (.error .poolExhausted, p.countDropped)
  | granted {lease : Lease} {p' : Pool} : size ≤ p.slotCapacity →
    (∃ slot ∈ p.slots, slot.state = .free) → lease.length = size → p.Lends lease p' →
    Outcome p size (.ok lease, p')

theorem lends (hn : size ≤ p.slotCapacity) (ht : p.free = some index)
    (hs : p.slots[index]? = some slot) (hf : slot.state = .free) :
    p.Outcome size (p.acquire size) := by
  have ⟨hi, _⟩ := List.getElem?_eq_some_iff.mp hs
  rw [acquire_eq hn ht hs]
  refine .granted hn ⟨slot, List.mem_of_getElem? hs, hf⟩ rfl ?_
  constructor
  case top      => exact ht
  case slot     => exact ⟨slot, hs, hf, rfl, rfl⟩
  case pending  => exact (stateOf?_set rfl hi _).trans (if_pos rfl)
  case others   => exact fun i ne => List.getElem?_set_ne ne.symm
  case ready    => rfl
  case accepted => rfl
  case dropped  => rfl

theorem Kept.outcome (k : p.Kept place) (size : Nat) : p.Outcome size (p.acquire size) := by
  by_cases hn : size ≤ p.slotCapacity
  case neg =>
    have hn := Nat.lt_of_not_le hn
    rw [acquire, if_pos hn]
    exact .tooLarge hn
  case pos =>
    cases ht : p.free
    case none =>
      have hp : p.pop? .free .pending = none := by
        rw [pop?, head, ht]
        rfl
      rw [acquire, if_neg (Nat.not_lt.mpr hn), hp]
      exact .exhausted hn <| (k.head_eq_none_iff .free).mp ht
    case some index =>
      obtain ⟨slot, hs, hf⟩ := k.of_head .free ht
      exact lends hn ht hs hf

namespace Outcome

variable {answer : Except Fault Lease × Pool} {fault : Fault}

theorem frameTooLarge_iff (o : p.Outcome size answer) :
    answer.1 = .error (.frameTooLarge size p.slotCapacity) ↔ p.slotCapacity < size := by
  cases o
  case tooLarge hn      => simp [hn]
  case exhausted hn _   => simp [hn]
  case granted hn _ _ _ => simp [hn]

theorem poolExhausted_iff (o : p.Outcome size answer) :
    answer.1 = .error .poolExhausted ↔
      size ≤ p.slotCapacity ∧ ∀ slot ∈ p.slots, slot.state ≠ .free := by
  cases o
  case tooLarge hn     => simp [Nat.not_le.mpr hn]
  case exhausted hn hb => exact ⟨fun _ => ⟨hn, hb⟩, fun _ => rfl⟩
  case granted hf _ _ =>
    obtain ⟨slot, hm, hs⟩ := hf
    exact ⟨nofun, fun hb => absurd hs (hb.right slot hm)⟩

theorem ok_iff (o : p.Outcome size answer) :
    (∃ lease, answer.1 = .ok lease) ↔
      size ≤ p.slotCapacity ∧ ∃ slot ∈ p.slots, slot.state = .free := by
  cases o
  case tooLarge hn       => simp [Nat.not_le.mpr hn]
  case exhausted _ hb    => exact ⟨nofun, fun ⟨_, slot, hm, hs⟩ => absurd hs (hb slot hm)⟩
  case granted hn hf _ _ => exact ⟨fun _ => ⟨hn, hf⟩, fun _ => ⟨_, rfl⟩⟩

theorem of_error (o : p.Outcome size answer) (h : answer.1 = .error fault) :
    answer = (.error fault, p.countDropped) := by
  cases o
  case tooLarge  => rw [← h]
  case exhausted => rw [← h]
  case granted   => contradiction

theorem of_ok (o : p.Outcome size answer) (h : answer.1 = .ok lease) :
    lease.length = size ∧ p.Lends lease answer.2 := by
  cases o
  case granted hl hs =>
    cases h
    exact ⟨hl, hs⟩
  all_goals contradiction

end Outcome

theorem publishes (hn : frame.length ≤ p.slotCapacity) (ht : p.free = some index)
    (hs : p.slots[index]? = some slot) (hf : slot.state = .free) :
    (p.receive frame).1 = .ok () ∧ p.Publishes frame (p.receive frame).2 := by
  have ⟨hi, hg⟩ := List.getElem?_eq_some_iff.mp hs
  rw [receive_eq hn ht hs]
  refine ⟨rfl, ?_⟩
  constructor
  case top =>
    refine ⟨_, _, pop?_eq rfl (List.getElem?_set_self hi) .inUse, ?_, rfl, ht, ?_, ?_⟩
    · exact contents_overwrite _
    · exact stateOf?_eq_some_iff.mpr ⟨slot, hs, hf⟩
    · exact fun i ne => List.getElem?_set_ne ne.symm
  case count    => simp [count, List.countP_set, hi, hg, hf]
  case accepted => rfl
  case dropped  => rfl

-- A frame is published just if there is a buffer for it.
theorem Kept.receive_cases (k : p.Kept place) (frame : Octets) :
    (∃ fault, (p.acquire frame.length).1 = .error fault ∧
      p.receive frame = (.error fault, p.countDropped)) ∨
    (∃ lease, (p.acquire frame.length).1 = .ok lease ∧
      (p.receive frame).1 = .ok () ∧ p.Publishes frame (p.receive frame).2) := by
  have o := k.outcome frame.length
  cases ha : (p.acquire frame.length).1
  case error fault =>
    refine .inl ⟨fault, rfl, ?_⟩
    rw [receive, o.of_error ha]
  case ok lease =>
    obtain ⟨hn, _⟩ := o.ok_iff.mp ⟨lease, ha⟩
    obtain ⟨_, lends⟩ := o.of_ok ha
    obtain ⟨_, hs, hf, _⟩ := lends.slot
    exact .inr ⟨lease, rfl, publishes hn lends.top hs hf⟩

-- Frames that were counted, for or against.
def counted (p : Pool) : UInt64 :=
  p.accepted + p.dropped

@[simp]
theorem counted_setHead (p : Pool) (top : Option Nat) (chain : Chain) :
    (p.setHead top chain).counted = p.counted := by
  cases chain <;> rfl

@[simp]
theorem counted_push (p : Pool) (chain : Chain) (lease : Lease) :
    (p.push chain lease).counted = p.counted :=
  counted_setHead ..

theorem counted_pop? {chain : Chain} {mark : SlotState} (h : p.pop? chain mark = some (lease, p')) :
    p'.counted = p.counted := by
  have ⟨_, _, _, _, hp⟩ := pop?_eq_some h
  rw [hp, counted_setHead]
  rfl

theorem counted_giveBack (p : Pool) (lease : Lease) : (p.giveBack lease).counted = p.counted :=
  counted_push ..

theorem counted_publish (p : Pool) (lease : Lease) : (p.publish lease).counted = p.counted :=
  counted_push ..

theorem counted_drop (p : Pool) (lease : Lease) : (p.drop lease).counted = p.counted := by
  rw [drop]
  split
  case isTrue  => rfl
  case isFalse => exact p.counted_giveBack lease

theorem counted_markReady (p : Pool) (lease : Lease) : (p.markReady lease).counted = p.counted :=
  (counted_drop ..).trans <| p.counted_publish lease

theorem counted_release (p : Pool) (lease : Lease) : (p.release lease).counted = p.counted :=
  (counted_drop ..).trans <| p.counted_giveBack lease

theorem counted_countAccepted (p : Pool) : p.countAccepted.counted = p.counted + 1 := by
  simp only [counted, countAccepted]
  ac_rfl

theorem counted_countDropped (p : Pool) : p.countDropped.counted = p.counted + 1 := by
  simp only [counted, countDropped]
  ac_rfl

theorem counted_acquire (p : Pool) (size : Nat) : (p.acquire size).2.counted = p.counted + 1 := by
  obtain ⟨_, ha⟩ | ⟨lease, p', _, hp, ha⟩ := p.acquire_cases size <;> rw [ha]
  case inl => exact p.counted_countDropped
  case inr => rw [counted_countAccepted, counted_pop? hp]

theorem counted_receive (p : Pool) (frame : Octets) :
    (p.receive frame).2.counted = p.counted + 1 := by
  obtain hr | ⟨lease, hr⟩ := p.pool_receive frame <;> rw [hr]
  case inl => exact p.counted_acquire frame.length
  case inr => rw [counted_publish, counted_acquire]

end Pool

namespace Circulation

variable {c : Circulation} {count capacity : Nat} {listed : Pool.Chain → List Nat}

-- Whether the producer asks for a buffer.
def Event.asks : Event → Bool
  | .acquire _ | .receive _ => true
  | _ => false

theorem pool_acquire (c : Circulation) (size : Nat) :
    (c.step (.acquire size)).pool = (c.pool.acquire size).2 := by
  rw [step]
  obtain ⟨_ | lease, p⟩ := c.pool.acquire size <;> rfl

theorem counted_finish {f : Pool → Lease → Pool} (hf : ∀ p lease, (f p lease).counted = p.counted)
    (c : Circulation) (holder : Holder) (i : Nat) :
    (c.finish holder i f).pool.counted = c.pool.counted := by
  rw [finish]
  split
  case h_1 => rfl
  case h_2 => rw [pool_setHeld, hf]

theorem counted_step (c : Circulation) (event : Event) :
    (c.step event).pool.counted =
      if event.asks then c.pool.counted + 1 else c.pool.counted := by
  cases event
  case acquire size =>
    rw [pool_acquire]
    exact c.pool.counted_acquire size
  case receive frame => exact c.pool.counted_receive frame
  case fill          => rfl
  case truncate      => rfl
  case markReady i   => exact counted_finish Pool.counted_markReady c .producer i
  case dropPending i => exact counted_finish Pool.counted_drop c .producer i
  case takeReady =>
    rw [step]
    split
    case h_1    => rfl
    case h_2 ht => exact Pool.counted_pop? ht
  case release i   => exact counted_finish Pool.counted_release c .consumer i
  case dropReady i => exact counted_finish Pool.counted_drop c .consumer i

theorem counted_run (c : Circulation) (events : List Event) :
    (c.run events).pool.counted = c.pool.counted + UInt64.ofNat (events.countP Event.asks) := by
  induction events generalizing c
  case nil => exact (UInt64.add_zero _).symm
  case cons event events ih =>
    rw [run, List.foldl_cons, ← run, ih, c.counted_step, List.countP_cons]
    split
    case isTrue  => rw [UInt64.ofNat_add, UInt64.add_assoc, UInt64.add_comm 1]; rfl
    case isFalse => rfl

-- Whether a request is granted goes by its size and the states of the slots. One that is refused is
-- counted, and nothing else comes of it.
structure Accounts (c : Circulation) (capacity requests : Nat) : Prop where
  tooLarge  : ∀ size, (c.pool.acquire size).1 = .error (.frameTooLarge size capacity) ↔
    capacity < size
  exhausted : ∀ size, (c.pool.acquire size).1 = .error .poolExhausted ↔
    size ≤ capacity ∧ ∀ slot ∈ c.pool.slots,
      slot.state = .pending ∨ slot.state = .ready ∨ slot.state = .inUse
  granted   : ∀ size, (∃ lease, (c.pool.acquire size).1 = .ok lease) ↔
    size ≤ capacity ∧ ∃ slot ∈ c.pool.slots, slot.state = .free
  refused   : ∀ size fault, (c.pool.acquire size).1 = .error fault →
    c.step (.acquire size) = { c with pool := { c.pool with dropped := c.pool.dropped + 1 } }
  lent      : ∀ size lease, (c.pool.acquire size).1 = .ok lease →
    lease.length = size ∧ c.pool.Lends lease (c.pool.acquire size).2 ∧
    c.step (.acquire size) =
      { c with pool := (c.pool.acquire size).2, pending := lease :: c.pending }
  received  : ∀ frame, (c.pool.receive frame).1 =
    (c.pool.acquire frame.length).1.map fun _ => ()
  published : ∀ frame, (c.pool.receive frame).1 = .ok () ↔
    c.pool.Publishes frame (c.step (.receive frame)).pool
  rejected  : ∀ frame fault, (c.pool.receive frame).1 = .error fault →
    c.step (.receive frame) = { c with pool := { c.pool with dropped := c.pool.dropped + 1 } }
  counted   : (c.pool.accepted + c.pool.dropped).toNat = requests % UInt64.size

theorem Sound.accounts {requests : Nat} (h : c.Sound count capacity listed)
    (hr : c.pool.counted = UInt64.ofNat requests) : c.Accounts capacity requests := by
  have outcome := h.kept.outcome
  obtain rfl := h.capacity
  constructor
  case tooLarge => exact fun size => (outcome size).frameTooLarge_iff
  case exhausted =>
    intro size
    have busy (slot : Slot) : (slot.state = .pending ∨ slot.state = .ready ∨ slot.state = .inUse) ↔
        slot.state ≠ .free := by
      cases slot.state <;> simp
    simp only [busy]
    exact (outcome size).poolExhausted_iff
  case granted => exact fun size => (outcome size).ok_iff
  case refused =>
    intro size fault hf
    rw [Circulation.step, (outcome size).of_error hf]
    rfl
  case lent =>
    intro size lease hl
    obtain ⟨hn, lends⟩ := (outcome size).of_ok hl
    refine ⟨hn, lends, ?_⟩
    rw [Circulation.step]
    split
    case h_1 ha => simp [ha] at hl
    case h_2 ha =>
      rw [ha] at hl ⊢
      cases hl
      rfl
  case received =>
    intro frame
    obtain ⟨_, ha, hr⟩ | ⟨_, ha, hr, _⟩ := h.kept.receive_cases frame <;> rw [ha, hr] <;> rfl
  case published =>
    intro frame
    rw [Circulation.step]
    obtain ⟨_, _, hr⟩ | ⟨_, _, hr, hp⟩ := h.kept.receive_cases frame
    case inl =>
      rw [hr]
      constructor
      case mp =>
        intro
        contradiction
      case mpr => exact fun hp => absurd hp.count (Nat.ne_of_lt (Nat.lt_succ_self _))
    case inr => exact ⟨fun _ => hp, fun _ => hr⟩
  case rejected =>
    intro frame fault hf
    rw [Circulation.step]
    obtain ⟨_, _, hr⟩ | ⟨_, _, hr, _⟩ := h.kept.receive_cases frame
    case inl =>
      rw [hr]
      rfl
    case inr =>
      rw [hr] at hf
      contradiction
  case counted =>
    rw [← UInt64.toNat_ofNat', ← hr]
    rfl

-- Whatever the producer and the consumer have done, and in whatever order.
theorem run_accounts {p : Pool} (hp : Pool.makeWith count capacity = .ok p) (events : List Event) :
    (run { pool := p } events).Accounts capacity (events.countP Event.asks) := by
  have counted := counted_run { pool := p } events
  have ⟨hn, hc⟩ := Pool.ne_zero_of_makeWith hp
  rw [Pool.makeWith_eq hn hc] at hp
  cases hp
  have ⟨_, h⟩ := (sound_makeWith hn).run hc events
  exact h.accounts <| counted.trans <| UInt64.zero_add _

-- One slot, which is leased when a frame comes that it could hold, and another that it could not.
theorem run_accounts_one :
    ∃ p, Pool.makeWith 1 2 = .ok p ∧
      let events := [.receive [1, 2], .takeReady, .release 0, .acquire 2, .receive [3], .acquire 3]
      let c := run { pool := p } events
      c.pool.accepted = 2 ∧ c.pool.dropped = 2 ∧ c.pool.census = ⟨0, 1, 0, 0⟩ ∧
      c.Accounts 2 4 := by
  have hp := Pool.makeWith_eq (by decide : 1 ≠ 0) (by decide : 2 ≠ 0)
  exact ⟨_, hp, by rfl, by rfl, by rfl, run_accounts hp _⟩

end Circulation

end RemoteScreen
