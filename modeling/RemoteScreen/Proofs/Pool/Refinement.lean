import Mathlib.Data.List.InsertIdx
import RemoteScreen.Proofs.Pool.Stacks

namespace RemoteScreen

namespace Lease

variable {lease : Lease} {capacity : Nat}

-- All that a holder can tell of a lease.
def view (l : Lease) : Nat × Octets :=
  (l.index, l.contents)

theorem Fits.length_contents (h : lease.Fits capacity) : lease.contents.length = lease.length := by
  rw [contents, List.length_take, h.storage]
  exact Nat.min_eq_left h.length

theorem Fits.contents_fill (h : lease.Fits capacity) (octets : Octets) :
    (lease.fill octets).contents =
      octets.take lease.contents.length ++ lease.contents.drop octets.length := by
  have hl := h.length
  rw [h.length_contents]
  simp only [Lease.fill, contents, Octets.overwrite, List.take_zero, List.nil_append, Nat.zero_add,
    List.length_take]
  rw [List.take_append, List.take_take, Nat.min_self, List.length_take, List.drop_take]
  congr 1
  by_cases ho : octets.length ≤ lease.length
  case pos => rw [Nat.min_eq_right ho]
  case neg =>
    have ho := Nat.le_of_not_le ho
    rw [Nat.min_eq_left ho, Nat.sub_self, Nat.sub_eq_zero_of_le ho, List.take_zero, List.take_zero]

theorem contents_truncate (lease : Lease) (length : Nat) :
    (lease.truncate length).contents = lease.contents.take length := by
  rw [contents, contents, List.take_take, Nat.min_comm]
  rfl

end Lease

-- What the slots on the lists have in them.
structure Stacks.Fill (s : Stacks) (slots : List Slot) : Prop where
  blank  : ∀ i ∈ s.free, ∀ slot, slots[i]? = some slot → slot.storage = Octets.zeros s.slotCapacity
  filled : ∀ x ∈ s.ready, ∀ slot, slots[x.index]? = some slot →
    slot.storage.take slot.length = x.contents

namespace Stacks

variable {s : Stacks} {slots : List Slot} {index : Nat} {slot : Slot} {x : Parcel}

@[simp]
theorem held_setHeld (s : Stacks) (parcels : List Parcel) (holder other : Holder) :
    (s.setHeld parcels holder).held other = if other = holder then parcels else s.held other := by
  cases holder <;> cases other <;> rfl

-- The indices of the slots on the lists.
def listed (s : Stacks) : Pool.Chain → List Nat
  | .free  => s.free
  | .ready => s.ready.map Parcel.index

theorem of_getElem?_set {new : Slot} {i : Nat} (h : (slots.set index new)[i]? = some slot) :
    (i = index ∧ slot = new) ∨ (i ≠ index ∧ slots[i]? = some slot) := by
  rw [List.getElem?_set] at h
  split at h
  case isTrue hi =>
    split at h
    case isTrue  => exact .inl ⟨hi.symm, (Option.some.inj h).symm⟩
    case isFalse => contradiction
  case isFalse hi => exact .inr ⟨Ne.symm hi, h⟩

@[simp]
theorem listed_setHeld (s : Stacks) (parcels : List Parcel) (holder : Holder) :
    (s.setHeld parcels holder).listed = s.listed := by
  cases holder <;> rfl

theorem listed_giveBack (s : Stacks) (x : Parcel) :
    (s.giveBack x).listed = Circulation.relisted s.listed .free (x.index :: s.listed .free) := by
  funext chain
  cases chain <;> rfl

theorem listed_publish (s : Stacks) (x : Parcel) :
    (s.publish x).listed = Circulation.relisted s.listed .ready (x.index :: s.listed .ready) := by
  funext chain
  cases chain <;> rfl

theorem Fill.setHeld (f : s.Fill slots) (parcels : List Parcel) (holder : Holder) :
    (s.setHeld parcels holder).Fill slots := by
  cases holder <;> exact ⟨f.blank, f.filled⟩

-- A slot that is on no list may change.
theorem Fill.set (f : s.Fill slots) (h : ∀ chain, index ∉ s.listed chain) (new : Slot) :
    s.Fill (slots.set index new) where
  blank i hi slot hs := by
    obtain ⟨rfl, -⟩ | ⟨-, hs⟩ := of_getElem?_set hs
    · exact absurd hi (h .free)
    · exact f.blank i hi slot hs
  filled x hx slot hs := by
    obtain ⟨he, -⟩ | ⟨-, hs⟩ := of_getElem?_set hs
    · exact absurd (he ▸ List.mem_map_of_mem hx) (h .ready)
    · exact f.filled x hx slot hs

theorem Fill.giveBack (f : s.Fill slots) (h : ∀ chain, x.index ∉ s.listed chain) {new : Slot}
    (hn : new.storage = Octets.zeros s.slotCapacity) :
    (s.giveBack x).Fill (slots.set x.index new) where
  blank i hi slot hs := by
    cases hi
    case head =>
      obtain ⟨-, rfl⟩ | ⟨ne, -⟩ := of_getElem?_set hs
      · exact hn
      · contradiction
    case tail hi => exact (f.set h new).blank i hi slot hs
  filled := (f.set h new).filled

theorem Fill.publish (f : s.Fill slots) (h : ∀ chain, x.index ∉ s.listed chain) {new : Slot}
    (hn : new.storage.take new.length = x.contents) :
    (s.publish x).Fill (slots.set x.index new) where
  blank := (f.set h new).blank
  filled y hy slot hs := by
    cases hy
    case head =>
      obtain ⟨-, rfl⟩ | ⟨ne, -⟩ := of_getElem?_set hs
      · exact hn
      · contradiction
    case tail hy => exact (f.set h new).filled y hy slot hs

end Stacks

namespace Circulation

variable {c : Circulation} {s : Stacks} {count : Nat} {holder : Holder} {lease : Lease} {i : Nat}
  {x : Parcel}

-- What whoever does a thing is told: whether it failed, and the slot and octets it has got.
def answer (c : Circulation) : Event → Except Fault (Option (Nat × Octets))
  | .acquire size => (c.pool.acquire size).1.map fun lease => some lease.view
  | .receive frame => (c.pool.receive frame).1.map fun _ => none
  | .takeReady => .ok (c.pool.takeReady?.map (·.1.view))
  | _ => .ok none

-- The pool and the leases that are out show the stacks and the parcels that are held.
structure Shows (c : Circulation) (count : Nat) (s : Stacks) : Prop where
  sound : c.Sound count s.slotCapacity s.listed
  held  : ∀ holder, (c.held holder).map Lease.view = (s.held holder).map Parcel.view
  fill  : s.Fill c.pool.slots

theorem Sound.not_listed {capacity : Nat} {listed : Pool.Chain → List Nat}
    (h : c.Sound count capacity listed) {i : Nat} (hl : i ∈ c.leased holder) (chain : Pool.Chain) :
    i ∉ listed chain := by
  rw [← c.place_holder listed] at hl
  rw [← c.place_chain listed]
  exact h.kept.placed.not_mem hl (holder.state_ne chain)

-- At every place there is a lease just if there is a parcel, and they look the same.
theorem Shows.held_cases (h : c.Shows count s) (holder : Holder) (i : Nat) :
    ((c.held holder)[i]? = none ∧ (s.held holder)[i]? = none) ∨
    ∃ lease x, (c.held holder)[i]? = some lease ∧ (s.held holder)[i]? = some x ∧
      lease.view = x.view := by
  have hm := congrArg (·[i]?) (h.held holder)
  simp only [List.getElem?_map] at hm
  cases hl : (c.held holder)[i]? <;> cases hx : (s.held holder)[i]? <;> rw [hl, hx] at hm
  case none.none           => exact .inl ⟨rfl, rfl⟩
  case some.some lease x   => exact .inr ⟨lease, x, rfl, rfl, Option.some.inj hm⟩
  all_goals contradiction

-- A lease ends with its slot on top of a list, and so does the holding of the parcel.
theorem Shows.push {back : Lease} {s' : Stacks} {chain : Pool.Chain} (h : c.Shows count s)
    (hl : (c.held holder)[i]? = some lease) (he : back.index = lease.index)
    (hb : back.Fits s.slotCapacity) (hc : s'.slotCapacity = s.slotCapacity)
    (hs : s'.listed = relisted s.listed chain (lease.index :: s.listed chain))
    (hh : s'.held = (s.setHeld ((s.held holder).eraseIdx i) holder).held)
    (hf : s'.Fill
      (c.pool.slots.set back.index ⟨chain.state, back.length, c.pool.head chain, back.storage⟩)) :
    Shows (Circulation.setHeld { c with pool := c.pool.push chain back }
      ((c.held holder).eraseIdx i) holder) count s' := by
  constructor
  case sound =>
    rw [hc, hs]
    exact h.sound.push hl he hb chain
  case held =>
    intro other
    rw [hh, held_setHeld, Stacks.held_setHeld]
    split
    case isTrue  => rw [← List.eraseIdx_map, ← List.eraseIdx_map, h.held]
    case isFalse => exact h.held other
  case fill =>
    rw [pool_setHeld, Pool.slots_push]
    exact hf

-- Where a lease goes when it ends, a parcel goes as well.
def Agree (f : Pool → Lease → Pool) (g : Stacks → Parcel → Stacks) (count capacity : Nat) : Prop :=
  ∀ {c : Circulation} {s : Stacks} {holder : Holder} {i : Nat} {lease : Lease} {x : Parcel},
    c.Shows count s → s.slotCapacity = capacity → (c.held holder)[i]? = some lease →
    lease.view = x.view →
    Shows (Circulation.setHeld { c with pool := f c.pool lease }
        ((c.held holder).eraseIdx i) holder) count
      (g (s.setHeld ((s.held holder).eraseIdx i) holder) x)

theorem Shows.not_listed (h : c.Shows count s) (hl : (c.held holder)[i]? = some lease)
    (parcels : List Parcel) (chain : Pool.Chain) :
    lease.index ∉ (s.setHeld parcels holder).listed chain := by
  rw [Stacks.listed_setHeld]
  exact h.sound.not_listed (List.mem_map_of_mem <| List.mem_of_getElem? hl) chain

theorem agree_publish (capacity : Nat) :
    Agree Pool.markReady Stacks.publish count capacity := by
  intro c s holder i lease x h _ hl hv
  have hn := h.not_listed hl ((s.held holder).eraseIdx i)
  injection hv with hi hx
  rw [c.pool.markReady_eq]
  apply h.push hl rfl (h.sound.leases holder lease <| List.mem_of_getElem? hl)
  case hc => exact s.slotCapacity_setHeld _ holder
  case hs => rw [Stacks.listed_publish, Stacks.listed_setHeld, hi]
  case hh =>
    funext other
    cases other <;> rfl
  case hf =>
    rw [hi] at hn ⊢
    exact (h.fill.setHeld _ holder).publish hn hx

theorem agree_giveBack {capacity : Nat} {f : Pool → Lease → Pool}
    (hf : ∀ lease : Lease, lease.Fits capacity → ∀ p, f p lease = p.push .free lease.zeroed) :
    Agree f Stacks.giveBack count capacity := by
  intro c s holder i lease x h hc hl hv
  subst hc
  have hn := h.not_listed hl ((s.held holder).eraseIdx i)
  have hl' := h.sound.leases holder lease <| List.mem_of_getElem? hl
  injection hv with hi _
  have he : lease.zeroed.index = lease.index := rfl
  rw [hf lease hl']
  apply h.push hl he hl'.zeroed
  case hc => exact s.slotCapacity_setHeld _ holder
  case hs => rw [Stacks.listed_giveBack, Stacks.listed_setHeld, hi]
  case hh =>
    funext other
    cases other <;> rfl
  case hf =>
    have hz : lease.zeroed.storage = Octets.zeros s.slotCapacity := by
      rw [Lease.zeroed, hl'.storage]
    rw [he, hi]
    rw [hi] at hn
    exact (h.fill.setHeld _ holder).giveBack hn (s.slotCapacity_setHeld _ holder ▸ hz)

theorem Agree.abandon {capacity : Nat} {f : Pool → Lease → Pool}
    (ha : Agree f Stacks.giveBack count capacity) : Agree f Stacks.abandon count capacity := by
  intro c s holder i lease x h hc hl hv
  have ⟨hs, hh, hf⟩ := ha h hc hl hv
  refine ⟨hs, fun other => ?_, ⟨hf.blank, hf.filled⟩⟩
  rw [hh other]
  cases other <;> rfl

theorem Shows.finish {f : Pool → Lease → Pool} {g : Stacks → Parcel → Stacks}
    (h : c.Shows count s) (ha : Agree f g count s.slotCapacity) (holder : Holder) (i : Nat) :
    (c.finish holder i f).Shows count (s.finish holder i g) := by
  rw [Circulation.finish, Stacks.finish]
  cases h.held_cases holder i
  case inl hn =>
    rw [hn.left, hn.right]
    exact h
  case inr hs =>
    obtain ⟨lease, x, hl, hx, hv⟩ := hs
    rw [hl, hx]
    exact ha h rfl hl hv

-- The producer works on a lease and on the parcel with it.
theorem Shows.modify {f : Lease → Lease} {g : Parcel → Parcel} (h : c.Shows count s)
    (hs : Sound { c with pending := c.pending.modify i f } count s.slotCapacity s.listed)
    (hv : ∀ (lease : Lease) (x : Parcel), lease.Fits s.slotCapacity → lease.view = x.view →
      (f lease).view = (g x).view) :
    Shows { c with pending := c.pending.modify i f } count
      { s with pending := s.pending.modify i g } where
  sound := hs
  held
    | .producer => by
      apply List.ext_getElem?
      intro j
      simp only [Circulation.held, Stacks.held, List.getElem?_map, List.getElem?_modify]
      cases h.held_cases .producer j
      case inl hn =>
        obtain ⟨hl, hx⟩ := hn
        rw [Circulation.held] at hl
        rw [Stacks.held] at hx
        rw [hl, hx]
        rfl
      case inr hs =>
        obtain ⟨lease, x, hl, hx, he⟩ := hs
        have hf := h.sound.leases .producer lease <| List.mem_of_getElem? hl
        rw [Circulation.held] at hl
        rw [Stacks.held] at hx
        rw [hl, hx]
        split
        case isTrue  => exact congrArg some (hv lease x hf he)
        case isFalse => exact congrArg some he
    | .consumer => h.held .consumer
  fill := ⟨h.fill.blank, h.fill.filled⟩

theorem Shows.fillLease (h : c.Shows count s) (i : Nat) (octets : Octets) :
    (c.step (.fill i octets)).Shows count (s.step (.fill i octets)) := by
  apply h.modify (h.sound.fill i octets)
  intro lease x hf hv
  injection hv with hi hx
  rw [Lease.view, Parcel.view, hf.contents_fill, hx]
  exact congrArg (·, _) hi

theorem Shows.truncate (h : c.Shows count s) (i length : Nat) :
    (c.step (.truncate i length)).Shows count (s.step (.truncate i length)) := by
  apply h.modify (h.sound.truncate i length)
  intro lease x _ hv
  injection hv with hi hx
  rw [Lease.view, Parcel.view, lease.contents_truncate, hx]
  exact congrArg (·, _) hi

-- The top of a list is leased, and so is the parcel.
theorem Shows.lend {chain : Pool.Chain} {p : Pool} {lent : Lease} {rest : List Nat} {s' : Stacks}
    (h : c.Shows count s) (holder : Holder) (hp : c.pool.pop? chain holder.state = some (lease, p))
    (hi : lent.index = lease.index) (hf : lent.Fits s.slotCapacity) (hv : lent.view = x.view)
    (ht : s.listed chain = x.index :: rest) (hc : s'.slotCapacity = s.slotCapacity)
    (hs : s'.listed = relisted s.listed chain rest)
    (hh : s'.held = (s.setHeld (x :: s.held holder) holder).held)
    (hw : s'.Fill c.pool.slots) :
    Shows (Circulation.setHeld { c with pool := p } (lent :: c.held holder) holder) count s' := by
  have ⟨_, rest', ht', hl⟩ := h.sound.lend chain holder hp
  have hr : rest' = rest := (List.cons.inj (ht'.symm.trans ht)).right
  have hl : Sound (Circulation.setHeld { c with pool := p } (lent :: c.held holder) holder) count
      s'.slotCapacity s'.listed := by
    rw [hc, hs, ← hr]
    exact hl lent hi hf
  constructor
  case sound => exact hl
  case held =>
    intro other
    rw [hh, held_setHeld, Stacks.held_setHeld]
    split
    case isTrue  => rw [List.map_cons, List.map_cons, h.held, hv]
    case isFalse => exact h.held other
  case fill =>
    have ⟨slot, _, _, _, he⟩ := Pool.pop?_eq_some hp
    rw [pool_setHeld, he, Pool.slots_setHead]
    apply hw.set
    rw [← hi]
    apply hl.not_listed
    rw [leased, held_setHeld, if_pos rfl]
    exact List.mem_cons_self

-- A pool that has counted one more frame, for or against.
theorem Shows.countAccepted (h : c.Shows count s) :
    Shows { c with pool := c.pool.countAccepted } count s :=
  ⟨h.sound.countAccepted, h.held, h.fill⟩

theorem Shows.countDropped (h : c.Shows count s) :
    Shows { c with pool := c.pool.countDropped } count s :=
  ⟨h.sound.countDropped, h.held, h.fill⟩

-- A slot from the free list has zeros in it, whatever was there before.
theorem Shows.contents_free {p : Pool} {mark : SlotState} {size : Nat} (h : c.Shows count s)
    (hp : c.pool.pop? .free mark = some (lease, p)) (hi : lease.index ∈ s.free)
    (hs : size ≤ s.slotCapacity) :
    Lease.contents { lease with length := size } = Octets.zeros size := by
  have ⟨slot, _, hg, hl, _⟩ := Pool.pop?_eq_some hp
  have hb := h.fill.blank lease.index hi slot hg
  rw [hl, Lease.contents, hb, Octets.zeros, List.take_replicate, Nat.min_eq_left hs, Octets.zeros]

theorem Shows.contents_ready {p : Pool} {mark : SlotState} (h : c.Shows count s)
    (hp : c.pool.pop? .ready mark = some (lease, p)) (hi : lease.index = x.index)
    (hx : x ∈ s.ready) : lease.view = x.view := by
  have ⟨slot, _, hg, hl, _⟩ := Pool.pop?_eq_some hp
  rw [hi] at hg
  have hr := h.fill.filled x hx slot hg
  rw [Lease.view, Parcel.view, ← hr, ← hi, hl, Lease.contents]

theorem Shows.acquire_cases (h : c.Shows count s) (size : Nat) :
    (∃ fault, c.pool.acquire size = (.error fault, c.pool.countDropped) ∧
      s.lease size = .error fault) ∨
    ∃ lease p x s', c.pool.acquire size = (.ok lease, p) ∧ s.lease size = .ok (x, s') ∧
      x.contents = Octets.zeros size ∧ lease.view = x.view ∧
      Shows { c with pool := p, pending := lease :: c.pending } count
        { s' with pending := x :: s'.pending } := by
  have hc := h.sound.capacity
  rw [Pool.acquire, Stacks.lease, hc]
  split
  case isTrue => exact .inl ⟨_, rfl, rfl⟩
  case isFalse hs =>
    have hs := Nat.le_of_not_lt hs
    have hk := h.sound.kept
    cases hf : s.free
    case nil =>
      rw [hk.pop?_eq_none .free hf]
      exact .inl ⟨_, rfl, rfl⟩
    case cons index free =>
      right
      obtain ⟨lease, p, hp, hi⟩ := hk.pop?_isSome .free hf .pending
      have hm : lease.index ∈ s.free := hf ▸ hi ▸ List.mem_cons_self
      let lent : Lease := { lease with length := size }
      let x : Parcel := ⟨s.leases, index, Octets.zeros size⟩
      have hv : lent.view = x.view := congr (congrArg _ hi) (h.contents_free hp hm hs)
      have hl : lent.Fits s.slotCapacity := (h.sound.lend .free .producer hp).left.withLength hs
      have hw : Stacks.Fill { s with free } c.pool.slots :=
        ⟨fun i hi => h.fill.blank i (hf ▸ .tail _ hi), h.fill.filled⟩
      have hs : Shows { c with pool := p, pending := lent :: c.pending } count
          { s with free, leases := s.leases + 1, pending := x :: s.pending } := by
        refine h.lend .producer hp rfl hl hv hf rfl ?listed ?held ⟨hw.blank, hw.filled⟩
        case listed =>
          funext chain
          cases chain <;> rfl
        case held =>
          funext holder
          cases holder <;> rfl
      rw [hp]
      exact ⟨lent, _, x, _, rfl, rfl, rfl, hv, hs.countAccepted⟩

-- The only buffer of a pool is not free while a frame waits in it.
theorem Shows.free_eq_nil (h : c.Shows 1 s) (hr : s.ready ≠ []) : s.free = [] := by
  have hp := h.sound.kept.placed
  have zero {chain : Pool.Chain} {i : Nat} (hi : i ∈ s.listed chain) : i = 0 := by
    rw [← c.place_chain s.listed] at hi
    exact Nat.lt_one_iff.mp (h.sound.count ▸ hp.lt hi)
  have ⟨x, hx⟩ := List.exists_mem_of_ne_nil _ hr
  have hx : x.index ∈ s.listed .ready := List.mem_map_of_mem hx
  cases hf : s.free
  case nil => rfl
  case cons index free =>
    have hi : index ∈ s.listed .free := List.mem_of_mem_head? (congrArg List.head? hf)
    rw [zero hx, ← zero hi] at hx
    exact absurd hx <| hp.not_mem (s := .free) (t := .ready) hi nofun

theorem Shows.takeReady_cases (h : c.Shows count s) :
    (c.pool.takeReady? = none ∧ s.take? = none) ∨
    ∃ lease p x s', c.pool.takeReady? = some (lease, p) ∧ s.take? = some (x, s') ∧
      lease.view = x.view ∧
      Shows { c with pool := p, inUse := lease :: c.inUse } count
        { s' with inUse := x :: s'.inUse } := by
  have hk := h.sound.kept
  rw [Pool.takeReady?, Stacks.take?]
  cases hr : s.ready
  case nil =>
    have hn : s.listed .ready = [] := congrArg (List.map Parcel.index) hr
    exact .inl ⟨hk.pop?_eq_none .ready hn _, rfl⟩
  case cons x ready =>
    right
    have ht : s.listed .ready = x.index :: ready.map Parcel.index :=
      congrArg (List.map Parcel.index) hr
    obtain ⟨lease, p, hp, hi⟩ := hk.pop?_isSome .ready ht .inUse
    have hv := h.contents_ready hp hi (hr ▸ .head _)
    have hl := (h.sound.lend .ready .consumer hp).left
    have hw : Stacks.Fill { s with ready } c.pool.slots :=
      ⟨h.fill.blank, fun y hy => h.fill.filled y (hr ▸ .tail _ hy)⟩
    have hs : Shows { c with pool := p, inUse := lease :: c.inUse } count
        { s with ready, taken := x :: s.taken, inUse := x :: s.inUse } := by
      refine h.lend .consumer hp rfl hl hv ht rfl ?listed ?held ⟨hw.blank, hw.filled⟩
      case listed =>
        funext chain
        cases chain <;> rfl
      case held =>
        funext holder
        cases holder <;> rfl
    exact ⟨lease, p, x, _, hp, rfl, hv, hs⟩

-- The answers are the same.
theorem Shows.answer_eq (h : c.Shows count s) (event : Event) :
    c.answer event = s.answer event := by
  cases event
  case acquire size =>
    rw [Circulation.answer, Stacks.answer]
    cases h.acquire_cases size
    case inl ha =>
      obtain ⟨fault, hp, hs⟩ := ha
      rw [hp, hs]
      rfl
    case inr ha =>
      obtain ⟨lease, p, x, s', hp, hs, _, hv, _⟩ := ha
      rw [hp, hs]
      exact congrArg (Except.ok ∘ some) hv
  case receive frame =>
    rw [Circulation.answer, Stacks.answer, Pool.receive]
    cases h.acquire_cases frame.length
    case inl ha =>
      obtain ⟨fault, hp, hs⟩ := ha
      rw [hp, hs]
      rfl
    case inr ha =>
      obtain ⟨lease, p, x, s', hp, hs, _⟩ := ha
      rw [hp, hs]
      rfl
  case takeReady =>
    rw [Circulation.answer, Stacks.answer]
    cases h.takeReady_cases
    case inl ht => rw [ht.left, ht.right]; rfl
    case inr ht =>
      obtain ⟨lease, p, x, s', hp, hs, hv, _⟩ := ht
      rw [hp, hs]
      exact congrArg (Except.ok ∘ some) hv
  all_goals rfl

theorem Shows.acquire (h : c.Shows count s) (size : Nat) :
    (c.step (.acquire size)).Shows count (s.step (.acquire size)) := by
  rw [Circulation.step, Stacks.step]
  cases h.acquire_cases size
  case inl ha =>
    obtain ⟨fault, hp, hs⟩ := ha
    rw [hp, hs]
    exact h.countDropped
  case inr ha =>
    obtain ⟨lease, p, x, s', hp, hs, _, _, hn⟩ := ha
    rw [hp, hs]
    exact hn

theorem Shows.takeReady (h : c.Shows count s) :
    (c.step .takeReady).Shows count (s.step .takeReady) := by
  rw [Circulation.step, Stacks.step]
  cases h.takeReady_cases
  case inl ht =>
    rw [ht.left, ht.right]
    exact h
  case inr ht =>
    obtain ⟨lease, p, x, s', hp, hs, _, hn⟩ := ht
    rw [hp, hs]
    exact hn

theorem Shows.markReady (h : c.Shows count s) (i : Nat) :
    (c.step (.markReady i)).Shows count (s.step (.markReady i)) :=
  h.finish (agree_publish _) .producer i

theorem Shows.receive (h : c.Shows count s) (frame : Octets) :
    (c.step (.receive frame)).Shows count (s.step (.receive frame)) := by
  rw [Circulation.step, Pool.receive, Stacks.step]
  cases h.acquire_cases frame.length
  case inl ha =>
    obtain ⟨fault, hp, hs⟩ := ha
    rw [hp, hs]
    exact h.countDropped
  case inr ha =>
    obtain ⟨lease, p, x, s', hp, hs, hz, _, hn⟩ := ha
    have hx : x.fill frame = { x with contents := frame } := by
      rw [Parcel.fill, hz, Octets.length_zeros, List.take_length, List.drop_of_length_le,
        List.append_nil]
      exact Nat.le_of_eq (Octets.length_zeros _)
    -- The frame is handed on as though the producer had filled the lease.
    have hr := (hn.fillLease 0 frame).markReady 0
    rw [hp, hs]
    change Shows _ count (s'.publish { x with contents := frame })
    rw [← hx]
    exact hr

theorem Shows.step (h : c.Shows count s) (hc : s.slotCapacity ≠ 0) (event : Event) :
    (c.step event).Shows count (s.step event) := by
  have hd : Agree Pool.drop Stacks.giveBack count s.slotCapacity :=
    agree_giveBack fun _ hf => Pool.drop_eq hf hc
  cases event
  case acquire size      => exact h.acquire size
  case fill i octets     => exact h.fillLease i octets
  case truncate i length => exact h.truncate i length
  case markReady i   => exact h.markReady i
  case dropPending i => exact h.finish hd.abandon .producer i
  case receive frame => exact h.receive frame
  case takeReady     => exact h.takeReady
  case release i =>
    exact h.finish (agree_giveBack fun lease _ p => p.release_eq lease) .consumer i
  case dropReady i => exact h.finish hd .consumer i

theorem Shows.run (h : c.Shows count s) (hc : s.slotCapacity ≠ 0) (events : List Event) :
    (c.run events).Shows count (s.run events) := by
  induction events generalizing c s
  case nil => exact h
  case cons event _ ih => exact ih (h.step hc event) (s.slotCapacity_step event ▸ hc)

-- A new pool shows full stacks: slot 0 is on top, and there is nothing to take.
theorem shows_makeWith {capacity : Nat} (hn : count ≠ 0) :
    Shows ⟨⟨Pool.freshSlots count capacity, some 0, none, capacity, 0, 0⟩, [], []⟩ count
      (.fresh count capacity) where
  sound := by
    have hl : (Stacks.fresh count capacity).listed =
        relisted (fun _ => []) .free (List.range count) := by
      funext chain
      cases chain <;> rfl
    rw [hl]
    exact sound_makeWith hn
  held
    | .producer => rfl
    | .consumer => rfl
  fill := by
    refine ⟨fun i _ slot hs => ?_, fun x hx => nomatch hx⟩
    rw [Pool.getElem?_freshSlots] at hs
    split at hs
    case isTrue  => cases hs; rfl
    case isFalse => contradiction

-- The pool does what the stacks do: free slots and published parcels are each taken from the top,
-- and of the published parcels each goes to the consumer once and as it was published.
structure Refines (c : Circulation) (count : Nat) (s : Stacks) : Prop where
  shown     : c.Shows count s
  answers   : ∀ event, c.answer event = s.answer event
  blank     : ∀ size got, c.answer (.acquire size) = .ok got →
    ∃ index free, s.free = index :: free ∧ got = some (index, Octets.zeros size)
  latest    : ∀ got, c.answer .takeReady = .ok (some got) → ∃ x, s.Latest x ∧ got = x.view
  exhausted : c.answer .takeReady = .ok none ↔ ∀ x ∈ s.published, x ∈ s.taken
  delivered : s.published.Perm (s.taken ++ s.ready)
  once      : (s.published.map Parcel.serial).Nodup
  abandoned : ∀ x ∈ s.abandoned, ∀ y ∈ s.taken, y.serial ≠ x.serial

theorem Shows.refines (h : c.Shows count s) (hb : s.Balanced) : c.Refines count s where
  shown   := h
  answers := h.answer_eq
  blank size got ha := by
    rw [h.answer_eq, Stacks.answer] at ha
    cases hl : s.lease size
    case error => rw [hl] at ha; contradiction
    case ok =>
      have ⟨index, free, _, hf, hx, _⟩ := Stacks.lease_eq_ok hl
      rw [hl, Except.map, hx] at ha
      exact ⟨index, free, hf, (Except.ok.inj ha).symm⟩
  latest got ha := by
    rw [h.answer_eq, Stacks.answer] at ha
    have ⟨⟨x, _⟩, ht, he⟩ := Option.map_eq_some_iff.mp <| Except.ok.inj ha
    exact ⟨x, hb.latest ht, he.symm⟩
  exhausted := by
    rw [h.answer_eq, Stacks.answer, Except.ok.injEq, Option.map_eq_none_iff]
    exact hb.take?_eq_none_iff
  delivered := hb.delivered
  once      := hb.nodup_published
  abandoned := fun _ hx => hb.not_taken hx

-- Whatever the producer and the consumer do, and in whatever order.
theorem run_refines {capacity : Nat} {p : Pool} (hp : Pool.makeWith count capacity = .ok p)
    (events : List Event) :
    (run { pool := p } events).Refines count ((Stacks.fresh count capacity).run events) := by
  have ⟨hn, hc⟩ := Pool.ne_zero_of_makeWith hp
  rw [Pool.makeWith_eq hn hc] at hp
  cases hp
  exact ((shows_makeWith hn).run hc events).refines ((Stacks.balanced_fresh ..).run events)

-- A slot that went around, with octets hidden by a cut and a parcel that was never published.
theorem run_refines_two :
    ∃ p, Pool.makeWith 2 3 = .ok p ∧
      let events := [.receive [1, 2, 3], .acquire 3, .fill 0 [4, 5, 6], .truncate 0 1,
        .markReady 0, .takeReady, .release 0, .acquire 2, .fill 0 [7], .dropPending 0]
      let c := run { pool := p } events
      c.answer (.acquire 3) = .ok (some (1, [0, 0, 0])) ∧
      c.answer .takeReady = .ok (some (0, [1, 2, 3])) ∧
      c.Refines 2 ((Stacks.fresh 2 3).run events) := by
  have hp := Pool.makeWith_eq (by decide : 2 ≠ 0) (by decide : 3 ≠ 0)
  exact ⟨_, hp, by rfl, by rfl, run_refines hp _⟩

end Circulation

end RemoteScreen
