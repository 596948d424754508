import RemoteScreen.Circulation

namespace RemoteScreen

-- Following the links from `top` visits `indices` and ends.
inductive Linked (slots : List Slot) : Option Nat → List Nat → Prop
  | nil : Linked slots none []
  | cons {index : Nat} {slot : Slot} {rest : List Nat} :
    slots[index]? = some slot → Linked slots slot.next rest →
    Linked slots (some index) (index :: rest)

-- A slot that is not on a list may change without a trace.
theorem Linked.set {slots : List Slot} {top : Option Nat} {indices : List Nat} {index : Nat}
    (h : Linked slots top indices) (hi : index ∉ indices) (slot : Slot) :
    Linked (slots.set index slot) top indices := by
  induction h
  case nil => exact .nil
  case cons i old rest hs _ ih =>
    rw [List.mem_cons, not_or] at hi
    have hs : (slots.set index slot)[i]? = some old := by
      rw [List.getElem?_set_ne hi.left]
      exact hs
    exact .cons hs (ih hi.right)

theorem Linked.of_some {slots : List Slot} {index : Nat} {indices : List Nat}
    (h : Linked slots (some index) indices) :
    ∃ slot rest, indices = index :: rest ∧ slots[index]? = some slot ∧
      Linked slots slot.next rest := by
  cases h
  case cons slot rest hl hs => exact ⟨slot, rest, rfl, hs, hl⟩

theorem Holder.state_ne (holder : Holder) (chain : Pool.Chain) : holder.state ≠ chain.state := by
  cases holder <;> cases chain <;> decide

theorem Pool.Chain.state_ne {chain other : Pool.Chain} (h : other ≠ chain) :
    other.state ≠ chain.state := by
  cases chain <;> cases other <;> first | decide | contradiction

theorem SlotState.chain_or_holder (s : SlotState) :
    (∃ chain : Pool.Chain, s = chain.state) ∨ (∃ holder : Holder, s = holder.state) := by
  cases s
  case free    => exact .inl ⟨.free, rfl⟩
  case pending => exact .inr ⟨.producer, rfl⟩
  case ready   => exact .inl ⟨.ready, rfl⟩
  case inUse   => exact .inr ⟨.consumer, rfl⟩

-- The octets that a slot in a state has.
def SlotState.room (capacity : Nat) : SlotState → Nat
  | free | ready    => capacity
  | pending | inUse => 0

@[simp]
theorem Pool.Chain.room_state (chain : Chain) (capacity : Nat) :
    chain.state.room capacity = capacity := by
  cases chain <;> rfl

@[simp]
theorem Holder.room_state (holder : Holder) (capacity : Nat) : holder.state.room capacity = 0 := by
  cases holder <;> rfl

structure Slot.Fits (slot : Slot) (capacity : Nat) : Prop where
  length  : slot.length ≤ capacity
  storage : slot.storage.length = slot.state.room capacity

structure Lease.Fits (lease : Lease) (capacity : Nat) : Prop where
  length  : lease.length ≤ capacity
  storage : lease.storage.length = capacity

-- An index goes from the front of a place, or from within it, to the front of another.
structure Shifts (before after : SlotState → List Nat) (index : Nat) (s t : SlotState) : Prop where
  ne   : s ≠ t
  out  : (before s).Perm (index :: after s)
  into : after t = index :: before t
  same : ∀ u, u ≠ s → u ≠ t → after u = before u

theorem Shifts.count {before after : SlotState → List Nat} {index : Nat} {s t : SlotState}
    (h : Shifts before after index s t) (u : SlotState) (i : Nat) :
    (after u).count i + (if u = s ∧ i = index then 1 else 0) =
      (before u).count i + (if u = t ∧ i = index then 1 else 0) := by
  have hn := h.ne
  by_cases hs : u = s
  case pos =>
    subst hs
    rw [h.out.count_eq i, List.count_cons]
    grind
  case neg =>
    by_cases ht : u = t
    case pos =>
      subst ht
      rw [h.into, List.count_cons]
      grind
    case neg =>
      rw [h.same u hs ht]
      grind

namespace Pool

variable {p p' : Pool} {before after : SlotState → List Nat} {index : Nat} {s t : SlotState}
  {slot : Slot}

theorem stateOf?_set (hs : p'.slots = p.slots.set index slot) (hi : index < p.slots.length)
    (i : Nat) : p'.stateOf? i = if i = index then some slot.state else p.stateOf? i := by
  rw [stateOf?, hs]
  split
  case isTrue h  => rw [h, List.getElem?_set_self hi, Option.map_some]
  case isFalse h => rw [List.getElem?_set_ne (Ne.symm h), stateOf?]

theorem stateOf?_eq_none {i : Nat} : p.stateOf? i = none ↔ p.slots.length ≤ i := by
  rw [stateOf?, Option.map_eq_none_iff, List.getElem?_eq_none_iff]

-- Each slot is in the place that its state says, once, and in no other.
def Placed (p : Pool) (place : SlotState → List Nat) : Prop :=
  ∀ s i, (place s).count i = if p.stateOf? i = some s then 1 else 0

theorem Placed.nodup (h : p.Placed before) (s : SlotState) : (before s).Nodup := by
  apply List.nodup_iff_count.mpr
  intro i
  rw [h s i]
  split <;> decide

theorem Placed.mem_iff (h : p.Placed before) {i : Nat} : i ∈ before s ↔ p.stateOf? i = some s := by
  rw [← List.count_pos_iff, h s i]
  split <;> simp_all

theorem Placed.lt (h : p.Placed before) {i : Nat} (hi : i ∈ before s) : i < p.slots.length := by
  have hs := h.mem_iff.mp hi
  apply Nat.lt_of_not_le
  intro hl
  rw [stateOf?_eq_none.mpr hl] at hs
  contradiction

theorem Placed.not_mem (h : p.Placed before) {i : Nat} (hi : i ∈ before s) (ne : s ≠ t) :
    i ∉ before t := by
  intro ht
  rw [h.mem_iff] at hi ht
  exact ne <| Option.some.inj (hi.symm.trans ht)

-- The slot goes along with its index.
theorem Placed.shift (h : p.Placed before) (m : Shifts before after index s t)
    (hs : p'.slots = p.slots.set index slot) (ht : slot.state = t) : p'.Placed after := by
  intro u i
  have hm : index ∈ before s := m.out.mem_iff.mpr (.head _)
  have hi := h.mem_iff.mp hm
  have hc := m.count u i
  rw [h u i] at hc
  rw [stateOf?_set hs (h.lt hm), ht]
  by_cases he : i = index
  case pos =>
    subst he
    rw [hi] at hc
    grind
  case neg => grind

@[simp]
theorem slots_setHead (p : Pool) (top : Option Nat) (chain : Chain) :
    (p.setHead top chain).slots = p.slots := by
  cases chain <;> rfl

@[simp]
theorem slotCapacity_setHead (p : Pool) (top : Option Nat) (chain : Chain) :
    (p.setHead top chain).slotCapacity = p.slotCapacity := by
  cases chain <;> rfl

@[simp]
theorem head_setHead_self (p : Pool) (top : Option Nat) (chain : Chain) :
    (p.setHead top chain).head chain = top := by
  cases chain <;> rfl

theorem head_setHead_ne {chain other : Chain} (h : other ≠ chain) (p : Pool) (top : Option Nat) :
    (p.setHead top chain).head other = p.head other := by
  cases chain <;> cases other <;> first | rfl | contradiction

@[simp]
theorem slots_push (p : Pool) (chain : Chain) (lease : Lease) :
    (p.push chain lease).slots =
      p.slots.set lease.index ⟨chain.state, lease.length, p.head chain, lease.storage⟩ := by
  cases chain <;> rfl

-- The places of all slots, where the lists are as their links have them.
structure Kept (p : Pool) (place : SlotState → List Nat) : Prop where
  placed : p.Placed place
  linked : ∀ chain : Chain, Linked p.slots (p.head chain) (place chain.state)
  stored : ∀ slot ∈ p.slots, slot.Fits p.slotCapacity

-- The slots are as many and as large as before.
structure Resembles (p p' : Pool) : Prop where
  length   : p'.slots.length = p.slots.length
  capacity : p'.slotCapacity = p.slotCapacity

variable {chain : Chain} {holder : Holder} {lease : Lease}

theorem pop?_eq_some {mark : SlotState} (h : p.pop? chain mark = some (lease, p')) :
    ∃ slot, p.head chain = some lease.index ∧ p.slots[lease.index]? = some slot ∧
      lease = ⟨lease.index, slot.length, slot.storage⟩ ∧
      p' = { p with
        slots := p.slots.set lease.index ⟨mark, slot.length, none, []⟩
      : Pool }.setHead slot.next chain := by
  simp only [pop?, Option.bind_eq_bind, Option.bind_eq_some_iff] at h
  have ⟨index, hi, slot, hs, h⟩ := h
  injection h with h
  injection h with hl hp
  subst hl
  exact ⟨slot, hi, hs, rfl, hp.symm⟩

theorem pop?_eq (ht : p.head chain = some index) (hs : p.slots[index]? = some slot)
    (mark : SlotState) :
    p.pop? chain mark = some (⟨index, slot.length, slot.storage⟩,
      { p with
        slots := p.slots.set index ⟨mark, slot.length, none, []⟩
      : Pool }.setHead slot.next chain) := by
  rw [pop?, ht, Option.bind_eq_bind, Option.bind_some, hs]
  rfl

theorem Placed.state_eq (h : p.Placed before) (hm : index ∈ before s)
    (hs : p.slots[index]? = some slot) : slot.state = s := by
  have hi := h.mem_iff.mp hm
  rw [stateOf?, hs] at hi
  exact Option.some.inj hi

-- One slot changes place, and at most one list its top.
theorem Kept.shift (k : p.Kept before) (chain : Chain) (slot : Slot)
    (m : Shifts before after index s t) (hs : p'.slots = p.slots.set index slot)
    (ht : slot.state = t) (hc : p'.slotCapacity = p.slotCapacity) (hf : slot.Fits p.slotCapacity)
    (top : Linked p'.slots (p'.head chain) (after chain.state))
    (others : ∀ other, other ≠ chain →
      p'.head other = p.head other ∧ other.state ≠ s ∧ other.state ≠ t) : p'.Kept after := by
  constructor
  case placed => exact k.placed.shift m hs ht
  case linked =>
    intro other
    by_cases he : other = chain
    case pos => exact he ▸ top
    case neg =>
      have ⟨hh, ns, nt⟩ := others other he
      have hm : index ∈ before s := m.out.mem_iff.mpr (.head _)
      rw [hs, hh, m.same _ ns nt]
      exact (k.linked other).set (k.placed.not_mem hm ns.symm) slot
  case stored =>
    intro old ho
    rw [hc]
    rw [hs] at ho
    cases List.mem_or_eq_of_mem_set ho
    case inl ho => exact k.stored old ho
    case inr ho => exact ho ▸ hf

-- The slot on top of a list goes to a holder.
theorem Kept.pop (k : p.Kept before) (h : p.pop? chain holder.state = some (lease, p')) :
    lease.Fits p.slotCapacity ∧ p.Resembles p' ∧
    ∃ rest, before chain.state = lease.index :: rest ∧
      ∀ after, after chain.state = rest →
        Shifts before after lease.index chain.state holder.state → p'.Kept after := by
  have ⟨slot, ht, hs, hl, hp⟩ := pop?_eq_some h
  have hf := k.stored slot <| List.mem_of_getElem? hs
  have hc := k.linked chain
  rw [ht] at hc
  have ⟨_, rest, hb, hs', hr⟩ := hc.of_some
  rw [hs, Option.some_inj] at hs'
  subst hs'
  have hm : lease.index ∈ before chain.state := hb ▸ .head _
  have hst := k.placed.state_eq hm hs
  refine ⟨?fits, ?resembles, rest, hb, ?kept⟩
  case fits =>
    rw [hl]
    refine ⟨hf.length, ?_⟩
    rw [hf.storage, hst, Chain.room_state]
  case resembles =>
    subst hp
    constructor <;> simp
  case kept =>
    intro after ha m
    have hn := (List.nodup_cons.mp (hb ▸ k.placed.nodup chain.state)).left
    apply k.shift chain ⟨holder.state, slot.length, none, []⟩ m
    case hs => rw [hp, slots_setHead]
    case ht => rfl
    case hc => rw [hp, slotCapacity_setHead]
    case hf => exact ⟨hf.length, (holder.room_state _).symm⟩
    case top =>
      rw [ha, hp, head_setHead_self, slots_setHead]
      exact hr.set hn _
    case others =>
      intro other he
      refine ⟨?_, Chain.state_ne he, (holder.state_ne other).symm⟩
      rw [hp, head_setHead_ne he]
      cases other <;> rfl

theorem Kept.pop?_eq_none (k : p.Kept before) (chain : Chain) (h : before chain.state = [])
    (mark : SlotState) : p.pop? chain mark = none := by
  have hl := k.linked chain
  rw [h] at hl
  generalize ht : p.head chain = top at hl
  cases hl
  rw [pop?, ht]
  rfl

theorem Kept.pop?_isSome {rest : List Nat} (k : p.Kept before) (chain : Chain)
    (h : before chain.state = index :: rest) (mark : SlotState) :
    ∃ lease p', p.pop? chain mark = some (lease, p') ∧ lease.index = index := by
  have hl := k.linked chain
  rw [h] at hl
  generalize ht : p.head chain = top at hl
  cases hl
  case cons slot hs _ => exact ⟨_, _, pop?_eq ht hs mark, rfl⟩

-- A holder's slot goes on top of a list.
theorem Kept.push (k : p.Kept before) (m : Shifts before after lease.index holder.state chain.state)
    (hf : lease.Fits p.slotCapacity) :
    (p.push chain lease).Kept after ∧ p.Resembles (p.push chain lease) := by
  have hm : lease.index ∈ before holder.state := m.out.mem_iff.mpr (.head _)
  have hn := k.placed.not_mem hm (holder.state_ne chain)
  have hl := (k.linked chain).set hn ⟨chain.state, lease.length, p.head chain, lease.storage⟩
  constructor
  case left =>
    apply k.shift chain ⟨chain.state, lease.length, p.head chain, lease.storage⟩ m
    case hs => exact p.slots_push chain lease
    case ht => rfl
    case hc => rw [Pool.push, slotCapacity_setHead]
    case hf => exact ⟨hf.length, by rw [hf.storage, Chain.room_state]⟩
    case top =>
      rw [m.into, Pool.push, head_setHead_self, slots_setHead]
      exact .cons (List.getElem?_set_self <| k.placed.lt hm) hl
    case others =>
      intro other he
      refine ⟨?_, (holder.state_ne other).symm, Chain.state_ne he⟩
      rw [Pool.push, head_setHead_ne he]
      cases other <;> rfl
  case right =>
    constructor <;> simp [Pool.push]

end Pool

end RemoteScreen
