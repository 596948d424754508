import Mathlib.Data.List.Perm.Basic
import RemoteScreen.Proofs.Pool.Places

namespace RemoteScreen

theorem map_modify {α β : Type} {f : α → α} {g : α → β} (h : ∀ x, g (f x) = g x) (xs : List α)
    (i : Nat) : (xs.modify i f).map g = xs.map g := by
  apply List.ext_getElem?
  intro j
  rw [List.getElem?_map, List.getElem?_map, List.getElem?_modify]
  cases xs[j]?
  case none => rfl
  case some x =>
    by_cases hj : i = j
    case pos => simp [hj, h]
    case neg => simp [hj]

theorem Lease.Fits.withLength {lease : Lease} {capacity length : Nat} (h : lease.Fits capacity)
    (hl : length ≤ capacity) : Lease.Fits { lease with length } capacity :=
  ⟨hl, h.storage⟩

theorem Lease.Fits.fill {lease : Lease} {capacity : Nat} (h : lease.Fits capacity)
    (octets : Octets) : (lease.fill octets).Fits capacity := by
  refine ⟨h.length, ?_⟩
  rw [Lease.fill, Octets.length_overwrite, h.storage]
  rw [List.length_take, h.storage]
  have := h.length
  omega

theorem Lease.Fits.truncate {lease : Lease} {capacity : Nat} (h : lease.Fits capacity)
    (length : Nat) : (lease.truncate length).Fits capacity :=
  h.withLength <| Nat.le_trans (Nat.min_le_left ..) h.length

-- What a lease leaves in its slot when nobody is to read the contents.
def Lease.zeroed (lease : Lease) : Lease :=
  ⟨lease.index, 0, Octets.zeros lease.storage.length⟩

theorem Lease.Fits.zeroed {lease : Lease} {capacity : Nat} (h : lease.Fits capacity) :
    lease.zeroed.Fits capacity :=
  ⟨Nat.zero_le _, (Octets.length_zeros _).trans h.storage⟩

namespace Pool

variable {p : Pool} {place : SlotState → List Nat} {lease : Lease} {capacity : Nat}

theorem Kept.congr {p' : Pool} (k : p.Kept place) (hs : p'.slots = p.slots)
    (hh : ∀ chain, p'.head chain = p.head chain) (hc : p'.slotCapacity = p.slotCapacity) :
    p'.Kept place := by
  constructor
  case placed =>
    intro s i
    rw [stateOf?, hs]
    exact k.placed s i
  case linked =>
    intro chain
    rw [hs, hh]
    exact k.linked chain
  case stored =>
    rw [hs, hc]
    exact k.stored

theorem acquire_cases (p : Pool) (size : Nat) :
    (∃ fault, p.acquire size = (.error fault, p.countDropped)) ∨
    (∃ lease p', size ≤ p.slotCapacity ∧ p.pop? .free .pending = some (lease, p') ∧
      p.acquire size = (.ok { lease with length := size }, p'.countAccepted)) := by
  rw [acquire]
  split
  case isTrue => exact .inl ⟨_, rfl⟩
  case isFalse hs =>
    split
    case h_1 => exact .inl ⟨_, rfl⟩
    case h_2 lease p' hp => exact .inr ⟨lease, p', Nat.le_of_not_lt hs, hp, rfl⟩

-- Where a lease goes when it ends.
def Returns (f : Pool → Lease → Pool) (capacity : Nat) : Prop :=
  ∀ lease : Lease, lease.Fits capacity → ∃ (chain : Chain) (back : Lease),
    back.index = lease.index ∧ back.Fits capacity ∧ ∀ p, f p lease = p.push chain back

theorem drop_emptied (p : Pool) (lease : Lease) : p.drop lease.emptied = p :=
  if_pos rfl

theorem markReady_eq (p : Pool) (lease : Lease) : p.markReady lease = p.push .ready lease :=
  drop_emptied ..

theorem release_eq (p : Pool) (lease : Lease) : p.release lease = p.push .free lease.zeroed :=
  drop_emptied ..

theorem drop_eq (hf : lease.Fits capacity) (hc : capacity ≠ 0) (p : Pool) :
    p.drop lease = p.push .free lease.zeroed := by
  have hs : lease.storage ≠ [] := by
    intro hs
    have := hf.storage
    rw [hs, List.length_nil] at this
    exact hc this.symm
  rw [drop, if_neg hs, giveBack, Lease.zeroed]

theorem returns_markReady : Returns markReady capacity :=
  fun lease hf => ⟨.ready, lease, rfl, hf, fun p => p.markReady_eq lease⟩

theorem returns_release : Returns release capacity :=
  fun lease hf => ⟨.free, lease.zeroed, rfl, hf.zeroed, fun p => p.release_eq lease⟩

theorem returns_drop (h : capacity ≠ 0) : Returns drop capacity :=
  fun lease hf => ⟨.free, lease.zeroed, rfl, hf.zeroed, drop_eq hf h⟩

section Fresh

variable (count capacity : Nat)

theorem getElem?_freshSlots (i : Nat) :
    (freshSlots count capacity)[i]? =
      if i < count then
        some ⟨.free, 0, if i + 1 < count then some (i + 1) else none, Octets.zeros capacity⟩
      else none := by
  rw [freshSlots, List.getElem?_map]
  split
  case isTrue h  => rw [List.getElem?_range h, Option.map_some]
  case isFalse h => rw [List.getElem?_eq_none, Option.map_none]; simpa using h

-- By induction on how many slots are left to visit.
theorem linked_freshSlots (rest i : Nat) (h : i + rest = count) :
    Linked (freshSlots count capacity) (if i < count then some i else none)
      (List.range' i rest) := by
  induction rest generalizing i
  case zero =>
    rw [if_neg (by omega)]
    exact .nil
  case succ rest ih =>
    have hi : i < count := by omega
    rw [if_pos hi, List.range'_succ]
    refine .cons ((getElem?_freshSlots ..).trans <| if_pos hi) ?_
    exact ih (i + 1) (by omega)

end Fresh

theorem makeWith_eq {count : Nat} (hn : count ≠ 0) (hc : capacity ≠ 0) :
    makeWith count capacity =
      .ok ⟨freshSlots count capacity, some 0, none, capacity, 0, 0⟩ := by
  rw [makeWith, if_neg]
  exact fun h => h.elim hn hc

theorem ne_zero_of_makeWith {count : Nat} {p : Pool} (h : makeWith count capacity = .ok p) :
    count ≠ 0 ∧ capacity ≠ 0 := by
  rw [makeWith] at h
  split at h
  case isTrue      => contradiction
  case isFalse hne => exact not_or.mp hne

theorem census_total (p : Pool) : p.census.total = p.slots.length := by
  simp only [census, Census.total, count]
  induction p.slots
  case nil => rfl
  case cons slot _ ih =>
    simp only [List.countP_cons, List.length_cons]
    cases h : slot.state <;> simp <;> omega

end Pool

namespace Circulation

variable {c : Circulation} {count capacity : Nat} {listed : Pool.Chain → List Nat}
  {chain : Pool.Chain} {holder : Holder} {lease : Lease} {p : Pool}

-- The indices of the slots that a holder has.
def leased (c : Circulation) (holder : Holder) : List Nat :=
  (c.held holder).map Lease.index

-- The indices of the slots in each state, given those on the lists.
def place (c : Circulation) (listed : Pool.Chain → List Nat) : SlotState → List Nat
  | .free    => listed .free
  | .pending => c.leased .producer
  | .ready   => listed .ready
  | .inUse   => c.leased .consumer

def indices (c : Circulation) (listed : Pool.Chain → List Nat) : List Nat :=
  listed .free ++ listed .ready ++ (c.leased .producer ++ c.leased .consumer)

-- The lists, where one of them has changed.
def relisted (listed : Pool.Chain → List Nat) (chain : Pool.Chain) (indices : List Nat) :
    Pool.Chain → List Nat :=
  fun other => if other = chain then indices else listed other

theorem place_chain (c : Circulation) (listed : Pool.Chain → List Nat) (chain : Pool.Chain) :
    c.place listed chain.state = listed chain := by
  cases chain <;> rfl

theorem place_holder (c : Circulation) (listed : Pool.Chain → List Nat) (holder : Holder) :
    c.place listed holder.state = c.leased holder := by
  cases holder <;> rfl

@[simp]
theorem held_setHeld (c : Circulation) (leases : List Lease) (holder other : Holder) :
    (c.setHeld leases holder).held other = if other = holder then leases else c.held other := by
  cases holder <;> cases other <;> rfl

@[simp]
theorem pool_setHeld (c : Circulation) (leases : List Lease) (holder : Holder) :
    (c.setHeld leases holder).pool = c.pool := by
  cases holder <;> rfl

theorem place_same (c : Circulation) (p : Pool) (leases : List Lease) (indices : List Nat)
    (s : SlotState) (hc : s ≠ chain.state) (hh : s ≠ holder.state) :
    place (setHeld { c with pool := p } leases holder) (relisted listed chain indices) s
      = c.place listed s := by
  cases s <;> cases chain <;> cases holder <;> first | rfl | contradiction

-- The invariant: every slot is on a list or leased, and every lease has its storage.
structure Sound (c : Circulation) (count capacity : Nat) (listed : Pool.Chain → List Nat) :
    Prop where
  kept     : c.pool.Kept (c.place listed)
  leases   : ∀ holder, ∀ lease ∈ c.held holder, lease.Fits capacity
  count    : c.pool.slots.length = count
  capacity : c.pool.slotCapacity = capacity

theorem Sound.recount (h : c.Sound count capacity listed) (hs : p.slots = c.pool.slots)
    (hh : ∀ chain, p.head chain = c.pool.head chain) (hc : p.slotCapacity = c.pool.slotCapacity) :
    Sound { c with pool := p } count capacity listed where
  kept     := h.kept.congr hs hh hc
  leases   := h.leases
  count    := hs ▸ h.count
  capacity := hc.trans h.capacity

-- A pool that has counted one more frame, for or against.
theorem Sound.countAccepted (h : c.Sound count capacity listed) :
    Sound { c with pool := c.pool.countAccepted } count capacity listed :=
  h.recount rfl (fun chain => by cases chain <;> rfl) rfl

theorem Sound.countDropped (h : c.Sound count capacity listed) :
    Sound { c with pool := c.pool.countDropped } count capacity listed :=
  h.recount rfl (fun chain => by cases chain <;> rfl) rfl

-- A slot has changed hands, and so has its lease.
theorem Sound.setHeld {leases : List Lease} {listed' : Pool.Chain → List Nat}
    (h : c.Sound count capacity listed) (hr : c.pool.Resembles p)
    (hk : p.Kept <| place (Circulation.setHeld { c with pool := p } leases holder) listed')
    (hl : ∀ lease ∈ leases, lease.Fits capacity) :
    Sound (Circulation.setHeld { c with pool := p } leases holder) count capacity listed' where
  kept := by
    rw [pool_setHeld]
    exact hk
  leases other lease hm := by
    rw [held_setHeld] at hm
    split at hm
    case isTrue  => exact hl lease hm
    case isFalse => exact h.leases other lease hm
  count    := by rw [pool_setHeld, hr.length, h.count]
  capacity := by rw [pool_setHeld, hr.capacity, h.capacity]

-- The top of a list is leased, for as many octets as fit.
theorem Sound.lend (h : c.Sound count capacity listed) (chain : Pool.Chain) (holder : Holder)
    (hp : c.pool.pop? chain holder.state = some (lease, p)) :
    lease.Fits capacity ∧ ∃ rest, listed chain = lease.index :: rest ∧
      ∀ lent : Lease, lent.index = lease.index → lent.Fits capacity →
        Sound (Circulation.setHeld { c with pool := p } (lent :: c.held holder) holder)
          count capacity (relisted listed chain rest) := by
  have ⟨hf, hr, rest, hb, hk⟩ := h.kept.pop hp
  rw [h.capacity] at hf
  rw [place_chain] at hb
  refine ⟨hf, rest, hb, fun lent hi hl => h.setHeld hr ?kept ?fits⟩
  case kept =>
    have ha : (Circulation.setHeld { c with pool := p } (lent :: c.held holder) holder).place
        (relisted listed chain rest) chain.state = rest := by
      rw [place_chain, relisted, if_pos rfl]
    apply hk _ ha
    constructor
    case ne   => exact (holder.state_ne chain).symm
    case out  => rw [ha, place_chain, hb]
    case into =>
      rw [place_holder, place_holder, leased, leased, held_setHeld, if_pos rfl, List.map_cons, hi]
    case same => exact fun s hc hh => place_same c p _ rest s hc hh
  case fits =>
    intro l hm
    cases hm
    case head    => exact hl
    case tail hm => exact h.leases holder l hm

-- The slot of a lease that ends goes on top of a list.
theorem Sound.push {i : Nat} {back : Lease} (h : c.Sound count capacity listed)
    (hl : (c.held holder)[i]? = some lease) (he : back.index = lease.index)
    (hb : back.Fits capacity) (chain : Pool.Chain) :
    Sound (Circulation.setHeld { c with pool := c.pool.push chain back }
        ((c.held holder).eraseIdx i) holder) count capacity
      (relisted listed chain (lease.index :: listed chain)) := by
  have ⟨hlt, hg⟩ := List.getElem?_eq_some_iff.mp hl
  let indices := lease.index :: listed chain
  have m : Shifts (c.place listed)
      (place (Circulation.setHeld { c with pool := c.pool.push chain back }
        ((c.held holder).eraseIdx i) holder) (relisted listed chain indices))
      back.index holder.state chain.state := by
    constructor
    case ne   => exact holder.state_ne chain
    case out  =>
      rw [place_holder, place_holder, leased, leased, held_setHeld, if_pos rfl, he]
      rw [← List.map_cons]
      apply List.Perm.map
      rw [← hg]
      exact (List.getElem_cons_eraseIdx_perm hlt).symm
    case into => rw [place_chain, place_chain, relisted, if_pos rfl, he]
    case same => exact fun s hh hc => place_same c _ _ indices s hc hh
  have ⟨hk, hr⟩ := h.kept.push m (h.capacity ▸ hb)
  refine h.setHeld hr hk ?_
  exact fun l hm => h.leases holder l <| List.mem_of_mem_eraseIdx hm

-- A lease ends, and its slot is on a list again.
theorem Sound.finish {f : Pool → Lease → Pool} (h : c.Sound count capacity listed)
    (hf : Pool.Returns f capacity) (holder : Holder) (i : Nat) :
    ∃ listed, (c.finish holder i f).Sound count capacity listed := by
  rw [Circulation.finish]
  split
  case h_1 => exact ⟨listed, h⟩
  case h_2 lease hl =>
    have ⟨chain, back, he, hb, hp⟩ := hf lease <| h.leases _ _ <| List.mem_of_getElem? hl
    rw [hp]
    exact ⟨_, h.push hl he hb chain⟩

-- The producer works on a lease that it has.
theorem Sound.modify {f : Lease → Lease} (h : c.Sound count capacity listed)
    (hi : ∀ lease : Lease, (f lease).index = lease.index)
    (hf : ∀ lease : Lease, lease.Fits capacity → (f lease).Fits capacity) (i : Nat) :
    Sound { c with pending := c.pending.modify i f } count capacity listed := by
  constructor
  case kept =>
    have hp : Circulation.place { c with pending := c.pending.modify i f } listed =
        c.place listed := by
      funext s
      cases s
      case pending => exact map_modify hi c.pending i
      all_goals rfl
    rw [hp]
    exact h.kept
  case leases =>
    intro holder lease hm
    cases holder
    case producer =>
      have ⟨j, hj⟩ := List.getElem?_of_mem hm
      rw [held, List.getElem?_modify, Option.map_eq_map, Option.map_eq_some_iff] at hj
      have ⟨old, ho, he⟩ := hj
      have hl := h.leases .producer old <| List.mem_of_getElem? ho
      split at he
      case isTrue  => exact he ▸ hf old hl
      case isFalse => exact he ▸ hl
    case consumer => exact h.leases .consumer lease hm
  case count    => exact h.count
  case capacity => exact h.capacity

theorem Sound.fill (h : c.Sound count capacity listed) (i : Nat) (octets : Octets) :
    (c.step (.fill i octets)).Sound count capacity listed :=
  h.modify (f := (·.fill octets)) (fun _ => rfl) (fun _ hf => hf.fill octets) i

theorem Sound.truncate (h : c.Sound count capacity listed) (i length : Nat) :
    (c.step (.truncate i length)).Sound count capacity listed :=
  h.modify (f := (·.truncate length)) (fun _ => rfl) (fun _ hf => hf.truncate length) i

theorem Sound.acquire (h : c.Sound count capacity listed) (size : Nat) :
    ∃ listed, (c.step (.acquire size)).Sound count capacity listed := by
  rw [step]
  cases c.pool.acquire_cases size
  case inl ha =>
    have ⟨_, ha⟩ := ha
    rw [ha]
    exact ⟨listed, h.countDropped⟩
  case inr ha =>
    have ⟨lease, p, hs, hp, ha⟩ := ha
    rw [ha]
    have ⟨hf, _, _, hl⟩ := h.lend .free .producer hp
    have hl := hl { lease with length := size } rfl <| hf.withLength (h.capacity ▸ hs)
    exact ⟨_, hl.countAccepted⟩

-- Receiving a frame is taking a lease, filling it and handing it on, with nothing in between.
theorem step_receive (c : Circulation) (frame : Octets) :
    c.step (.receive frame) = c.step (.acquire frame.length) ∨
    c.step (.receive frame) =
      c.run [.acquire frame.length, .fill 0 frame, .markReady 0] := by
  cases c.pool.acquire_cases frame.length
  case inl ha =>
    have ⟨_, ha⟩ := ha
    left
    simp only [step, Pool.receive, ha]
  case inr ha =>
    have ⟨lease, p, _, _, ha⟩ := ha
    right
    simp only [run, List.foldl_cons, List.foldl_nil, step, Pool.receive, ha]
    rfl

theorem Sound.step (h : c.Sound count capacity listed) (hc : capacity ≠ 0) (event : Event) :
    ∃ listed, (c.step event).Sound count capacity listed := by
  cases event
  case acquire size      => exact h.acquire size
  case fill i octets     => exact ⟨listed, h.fill i octets⟩
  case truncate i length => exact ⟨listed, h.truncate i length⟩
  case markReady i   => exact h.finish Pool.returns_markReady .producer i
  case dropPending i => exact h.finish (Pool.returns_drop hc) .producer i
  case receive frame =>
    have ⟨listed, ha⟩ := h.acquire frame.length
    cases c.step_receive frame
    case inl hs => exact ⟨listed, hs ▸ ha⟩
    case inr hs =>
      rw [hs]
      exact (ha.fill 0 frame).finish Pool.returns_markReady .producer 0
  case takeReady =>
    rw [Circulation.step]
    split
    case h_1 => exact ⟨listed, h⟩
    case h_2 lease p hp =>
      have ⟨hf, _, _, hl⟩ := h.lend .ready .consumer hp
      exact ⟨_, hl lease rfl hf⟩
  case release i   => exact h.finish Pool.returns_release .consumer i
  case dropReady i => exact h.finish (Pool.returns_drop hc) .consumer i

theorem Sound.run (h : c.Sound count capacity listed) (hc : capacity ≠ 0) (events : List Event) :
    ∃ listed, (c.run events).Sound count capacity listed := by
  induction events generalizing c listed
  case nil => exact ⟨listed, h⟩
  case cons event _ ih =>
    have ⟨_, h⟩ := h.step hc event
    exact ih h

-- In a new pool all slots are on the free list, in order.
theorem sound_makeWith (hn : count ≠ 0) :
    Sound ⟨⟨Pool.freshSlots count capacity, some 0, none, capacity, 0, 0⟩, [], []⟩ count capacity
      (relisted (fun _ => []) .free (List.range count)) := by
  constructor
  case kept =>
    constructor
    case placed =>
      intro s i
      rw [Pool.stateOf?, Pool.getElem?_freshSlots]
      by_cases hi : i < count <;> cases s <;>
        simp [place, relisted, leased, held, List.count_range, hi]
    case linked =>
      intro chain
      cases chain
      case free =>
        have := Pool.linked_freshSlots count capacity count 0 (Nat.zero_add _)
        rw [if_pos (Nat.pos_of_ne_zero hn), ← List.range_eq_range'] at this
        exact this
      case ready => exact .nil
    case stored =>
      intro slot hs
      obtain ⟨i, hi⟩ := List.getElem?_of_mem hs
      rw [Pool.getElem?_freshSlots] at hi
      split at hi
      case isTrue =>
        cases hi
        exact ⟨Nat.zero_le _, Octets.length_zeros _⟩
      case isFalse => contradiction
  case leases =>
    intro holder lease hm
    cases holder <;> contradiction
  case count    => simp [Pool.freshSlots]
  case capacity => rfl

-- Every slot is on one list or leased to one holder, and is as it should be there.
structure Partitioned (c : Circulation) (count capacity : Nat) (listed : Pool.Chain → List Nat) :
    Prop where
  linked  : ∀ chain, Linked c.pool.slots (c.pool.head chain) (listed chain)
  nodup   : (c.indices listed).Nodup
  all     : (c.indices listed).Perm (List.range count)
  state   : ∀ i s, c.pool.stateOf? i = some s ↔ i ∈ c.place listed s
  census  : c.pool.census.total = count
  storage : ∀ i slot, c.pool.slots[i]? = some slot →
    (slot.storage.length = capacity ↔ ∃ chain, i ∈ listed chain) ∧
    (slot.storage = [] ↔ ∃ holder, i ∈ c.leased holder)
  leases  : ∀ holder, ∀ lease ∈ c.held holder,
    lease.length ≤ capacity ∧ lease.storage.length = capacity

theorem Sound.all (h : c.Sound count capacity listed) :
    (c.indices listed).Perm (List.range count) := by
  apply List.perm_iff_count.mpr
  intro i
  have hp := h.kept.placed
  simp only [indices, List.count_append, List.count_range]
  have hf : (listed .free).count i = _       := hp .free i
  have hr : (listed .ready).count i = _      := hp .ready i
  have hm : (c.leased .producer).count i = _ := hp .pending i
  have hu : (c.leased .consumer).count i = _ := hp .inUse i
  rw [hf, hr, hm, hu]
  cases hs : c.pool.stateOf? i
  case none =>
    rw [Pool.stateOf?_eq_none, h.count] at hs
    simp [Nat.not_lt_of_le hs]
  case some s =>
    have hi : i < count := by
      apply Nat.lt_of_not_le
      rw [← h.count, ← Pool.stateOf?_eq_none, hs]
      simp
    cases s <;> simp [hi]

theorem Sound.storage (h : c.Sound count capacity listed) (hc : capacity ≠ 0) {i : Nat}
    {slot : Slot} (hs : c.pool.slots[i]? = some slot) :
    (slot.storage.length = capacity ↔ ∃ chain, i ∈ listed chain) ∧
    (slot.storage = [] ↔ ∃ holder, i ∈ c.leased holder) := by
  have hp := h.kept.placed
  have hl := (h.kept.stored slot <| List.mem_of_getElem? hs).storage
  rw [h.capacity] at hl
  have hi : i ∈ c.place listed slot.state := by
    rw [hp.mem_iff, Pool.stateOf?, hs, Option.map_some]
  cases slot.state.chain_or_holder
  case inl hs =>
    obtain ⟨chain, hs⟩ := hs
    rw [hs, place_chain] at hi
    rw [hs, Pool.Chain.room_state] at hl
    constructor
    case left => exact ⟨fun _ => ⟨chain, hi⟩, fun _ => hl⟩
    case right =>
      constructor
      case mp =>
        intro he
        rw [he, List.length_nil] at hl
        exact absurd hl.symm hc
      case mpr =>
        rintro ⟨holder, hm⟩
        rw [← c.place_chain listed] at hi
        rw [← c.place_holder listed] at hm
        exact absurd hi <| hp.not_mem hm (holder.state_ne chain)
  case inr hs =>
    obtain ⟨holder, hs⟩ := hs
    rw [hs, place_holder] at hi
    rw [hs, Holder.room_state] at hl
    constructor
    case left =>
      constructor
      case mp =>
        intro he
        exact absurd (he.symm.trans hl) hc
      case mpr =>
        rintro ⟨chain, hm⟩
        rw [← c.place_chain listed] at hm
        rw [← c.place_holder listed] at hi
        exact absurd hm <| hp.not_mem hi (holder.state_ne chain)
    case right => exact ⟨fun _ => ⟨holder, hi⟩, fun _ => List.eq_nil_of_length_eq_zero hl⟩

theorem Sound.partitioned (h : c.Sound count capacity listed) (hc : capacity ≠ 0) :
    c.Partitioned count capacity listed := by
  constructor
  case linked =>
    intro chain
    rw [← c.place_chain listed]
    exact h.kept.linked chain
  case nodup   => exact h.all.symm.nodup List.nodup_range
  case all     => exact h.all
  case state   => exact fun _ _ => h.kept.placed.mem_iff.symm
  case census  => exact c.pool.census_total.trans h.count
  case storage => exact fun _ _ hs => h.storage hc hs
  case leases =>
    intro holder lease hm
    have hf := h.leases holder lease hm
    exact ⟨hf.length, hf.storage⟩

-- Whatever the producer and the consumer do, and in whatever order.
theorem run_partitioned (hn : count ≠ 0) (hc : capacity ≠ 0) :
    ∃ p, Pool.makeWith count capacity = .ok p ∧ ∀ events, ∃ listed,
      (run { pool := p } events).Partitioned count capacity listed := by
  refine ⟨_, Pool.makeWith_eq hn hc, fun events => ?_⟩
  have ⟨listed, h⟩ := (sound_makeWith hn).run hc events
  exact ⟨listed, h.partitioned hc⟩

-- One slot in each state.
theorem run_partitioned_four :
    4 ≠ 0 ∧ 5 ≠ 0 ∧ ∃ p, Pool.makeWith 4 5 = .ok p ∧
      let c := run { pool := p }
        [.receive [1, 2, 3], .takeReady, .acquire 6, .acquire 5, .truncate 0 4, .receive [4]]
      c.pool.census = ⟨1, 1, 1, 1⟩ ∧ ∃ listed, c.Partitioned 4 5 listed := by
  have ⟨p, hp, h⟩ := run_partitioned (by decide : 4 ≠ 0) (by decide : 5 ≠ 0)
  refine ⟨by decide, by decide, p, hp, ?_, h _⟩
  rw [Pool.makeWith_eq (by decide) (by decide)] at hp
  cases hp
  decide

end Circulation

end RemoteScreen
