import RemoteScreen.Proofs.Engine.Station
import RemoteScreen.Proofs.Pool.Accounting

namespace RemoteScreen

-- A free slot with nothing in it.
def Slot.blank (capacity : Nat) (next : Option Nat) : Slot :=
  ⟨.free, 0, next, Octets.zeros capacity⟩

namespace Pool

variable {p p' : Pool} {lease : Lease} {slot : Slot} {frame : Octets} {index : Nat}
  {next : Option Nat}

-- A ready buffer that is taken and given back at once goes on top of the free ones, zeroed.
theorem giveBack_takeReady? (h : p.takeReady? = some (lease, p')) :
    ∃ slot, p.ready = some lease.index ∧ p.slots[lease.index]? = some slot ∧
      p'.giveBack lease = { p with
        slots := p.slots.set lease.index (.blank slot.storage.length p.free)
        free  := some lease.index
        ready := slot.next } := by
  have ⟨slot, ht, hs, hl, hp⟩ := pop?_eq_some h
  refine ⟨slot, ht, hs, ?_⟩
  rw [hp, hl]
  simp [giveBack, push, setHead, head, Chain.state, Slot.blank]

-- A frame that comes in and goes out again at once leaves a blank slot as it was.
theorem giveBack_receive (hn : frame.length ≤ p.slotCapacity) (ht : p.free = some index)
    (hs : p.slots[index]? = some (.blank p.slotCapacity next)) :
    ∃ lease p', (p.receive frame).1 = .ok () ∧ (p.receive frame).2.capacity = p.capacity ∧
      (p.receive frame).2.takeReady? = some (lease, p') ∧ lease.contents = frame ∧
      p'.giveBack lease = p.countAccepted := by
  have ⟨hi, hg⟩ := List.getElem?_eq_some_iff.mp hs
  have hz : ((Slot.blank p.slotCapacity next).storage.overwrite 0 frame).length =
      p.slotCapacity := by
    rw [Octets.length_overwrite, Slot.blank, Octets.length_zeros]
    rwa [Slot.blank, Octets.length_zeros, Nat.zero_add]
  have same : p.slots.set index (.blank p.slotCapacity next) = p.slots := by
    rw [← hg, List.set_getElem_self]
  rw [receive_eq hn ht hs]
  refine ⟨_, _, rfl, List.length_set, pop?_eq rfl (List.getElem?_set_self hi) .inUse,
    contents_overwrite _, ?_⟩
  simp only [giveBack, push, setHead, head, Chain.state, countAccepted, hz, List.set_set, ← ht]
  exact congrArg (fun slots => { p.countAccepted with slots }) same

-- A free slot has no octets in use.
def Tidy (p : Pool) : Prop :=
  ∀ slot ∈ p.slots, slot.state = .free → slot.length = 0

theorem tidy_of_makeWith {count capacity : Nat} (h : makeWith count capacity = .ok p) :
    p.Tidy := by
  have ⟨hn, hc⟩ := ne_zero_of_makeWith h
  rw [makeWith_eq hn hc] at h
  cases h
  intro slot hm _
  obtain ⟨_, _, rfl⟩ := List.mem_map.mp hm
  rfl

theorem Tidy.set (h : p.Tidy) (hs : p'.slots = p.slots.set index slot)
    (hl : slot.state = .free → slot.length = 0) : p'.Tidy := by
  intro other ho
  rw [hs] at ho
  cases List.mem_or_eq_of_mem_set ho
  case inl ho => exact h other ho
  case inr ho => exact ho ▸ hl

theorem Tidy.pop? {chain : Chain} (h : p.Tidy) (holder : Holder)
    (hp : p.pop? chain holder.state = some (lease, p')) : p'.Tidy := by
  have ⟨slot, _, _, _, he⟩ := pop?_eq_some hp
  apply h.set (he ▸ slots_setHead ..)
  exact fun hf => absurd hf (holder.state_ne .free)

theorem Tidy.publish (h : p.Tidy) (lease : Lease) : (p.publish lease).Tidy :=
  h.set (slots_push ..) nofun

theorem Tidy.giveBack (h : p.Tidy) (lease : Lease) : (p.giveBack lease).Tidy :=
  h.set (slots_push ..) fun _ => rfl

theorem Tidy.drop (h : p.Tidy) (lease : Lease) : (p.drop lease).Tidy := by
  rw [Pool.drop]
  split
  case isTrue  => exact h
  case isFalse => exact h.giveBack lease

theorem Tidy.acquire (h : p.Tidy) (size : Nat) : (p.acquire size).2.Tidy := by
  obtain ⟨_, ha⟩ | ⟨_, _, _, hp, ha⟩ := p.acquire_cases size <;> rw [ha]
  case inl => exact h
  case inr =>
    have h := h.pop? .producer hp
    exact h

theorem Tidy.receive (h : p.Tidy) (frame : Octets) : (p.receive frame).2.Tidy := by
  have ha := h.acquire frame.length
  obtain hr | ⟨lease, hr⟩ := p.pool_receive frame <;> rw [hr]
  case inl => exact ha
  case inr => exact ha.publish lease

end Pool

namespace Circulation

variable {c : Circulation} {s : Stacks} {count : Nat}

theorem tidy_finish {f : Pool → Lease → Pool} (h : c.pool.Tidy)
    (hf : ∀ {p : Pool}, p.Tidy → ∀ lease, (f p lease).Tidy) (holder : Holder) (i : Nat) :
    (c.finish holder i f).pool.Tidy := by
  rw [finish]
  split
  case h_1 => exact h
  case h_2 =>
    rw [pool_setHeld]
    exact hf h _

theorem tidy_step (h : c.pool.Tidy) (event : Event) : (c.step event).pool.Tidy := by
  cases event
  case acquire size =>
    rw [pool_acquire]
    exact h.acquire size
  case fill          => exact h
  case truncate      => exact h
  case markReady i   => exact tidy_finish h (fun h _ => (h.publish _).drop _) .producer i
  case dropPending i => exact tidy_finish h Pool.Tidy.drop .producer i
  case receive frame => exact h.receive frame
  case takeReady =>
    rw [step]
    split
    case h_1    => exact h
    case h_2 ht => exact h.pop? .consumer ht
  case release i     => exact tidy_finish h (fun h _ => (h.giveBack _).drop _) .consumer i
  case dropReady i   => exact tidy_finish h Pool.Tidy.drop .consumer i

theorem tidy_run (h : c.pool.Tidy) (events : List Event) : (c.run events).pool.Tidy := by
  induction events generalizing c
  case nil             => exact h
  case cons event _ hi => exact hi (tidy_step h event)

-- The slot that a ready parcel is in.
theorem Shows.slot_of_ready {x : Parcel} (h : c.Shows count s) (hx : x ∈ s.ready) :
    ∃ slot, c.pool.slots[x.index]? = some slot ∧ slot.state = .ready ∧
      slot.storage.length = s.slotCapacity ∧ slot.storage.take slot.length = x.contents := by
  have hm : x.index ∈ c.place s.listed .ready := List.mem_map_of_mem hx
  have ⟨slot, hs, hr⟩ := Pool.stateOf?_eq_some_iff.mp <| h.sound.kept.placed.mem_iff.mp hm
  refine ⟨slot, hs, hr, ?_, h.fill.filled x hx slot hs⟩
  rw [(h.sound.kept.stored slot <| List.mem_of_getElem? hs).storage, hr, h.sound.capacity]
  rfl

theorem Shows.blank_of_free (h : c.Shows count s) (tidy : c.pool.Tidy)
    (hf : c.pool.count .free ≠ 0) :
    ∃ index next, c.pool.free = some index ∧
      c.pool.slots[index]? = some (.blank s.slotCapacity next) := by
  have k := h.sound.kept
  cases ht : c.pool.free
  case none =>
    have busy := (k.head_eq_none_iff .free).mp ht
    exact absurd (List.countP_eq_zero.mpr (by simpa [Pool.Chain.state] using busy)) hf
  case some index =>
    obtain ⟨slot, hs, hc⟩ := k.of_head .free ht
    have hm := k.placed.mem_iff.mpr <| Pool.stateOf?_eq_some_iff.mpr ⟨slot, hs, hc⟩
    have hl := tidy slot (List.mem_of_getElem? hs) hc
    have hz := h.fill.blank index hm slot hs
    refine ⟨index, slot.next, rfl, hs.trans <| congrArg some ?_⟩
    rw [Slot.blank, ← hl, ← hz, ← Pool.Chain.state, ← hc]

theorem Shows.index_takeReady? {lease : Lease} {p : Pool} {x : Parcel} {ready : List Parcel}
    (h : c.Shows count s) (ht : c.pool.takeReady? = some (lease, p)) (hr : s.ready = x :: ready) :
    lease.index = x.index := by
  have ⟨_, hi, _⟩ := Pool.pop?_eq_some ht
  have hl := h.sound.kept.linked .ready
  rw [hi, place_chain, Stacks.listed, hr] at hl
  obtain ⟨_, _, he, _⟩ := hl.of_some
  exact (List.cons.inj he).left.symm

end Circulation

-- All that was ready has been taken, from the top, and given back.
def Stacks.drained (s : Stacks) : Stacks :=
  { s with
    ready := []
    taken := s.ready.reverse ++ s.taken
    free  := (s.ready.map Parcel.index).reverse ++ s.free }

theorem Stacks.drained_of_nil {s : Stacks} (h : s.ready = []) : s.drained = s := by
  obtain ⟨⟩ := s
  cases h
  rfl

theorem Stacks.drained_of_cons {s : Stacks} {x : Parcel} {ready : List Parcel}
    (h : s.ready = x :: ready) :
    s.drained = drained { s with ready, taken := x :: s.taken, free := x.index :: s.free } := by
  simp [drained, h]

-- What is left of a pool when all that was ready has been taken and given back.
structure Circulation.Drained (c : Circulation) (count : Nat) (s : Stacks) (p : Pool) : Prop where
  shows    : Circulation.Shows { c with pool := p } count s.drained
  freed    : ∀ x ∈ s.ready, ∃ next,
    p.slots[x.index]? = some (.blank s.slotCapacity next)
  others   : ∀ i, i ∉ s.ready.map Parcel.index → p.slots[i]? = c.pool.slots[i]?
  accepted : p.accepted = c.pool.accepted
  dropped  : p.dropped = c.pool.dropped

namespace Station

variable {σ : Type} [Host σ] {s s' : Station σ} {frames : List Octets}

-- The loop that takes a ready buffer, handles the frame in it and frees it, and ends when there is
-- none. The frames are those that it comes upon.
inductive Drains : Station σ → List Octets → Station σ → Prop
  | done {s : Station σ} : s.pool.takeReady? = none → Drains s [] s
  | next {s s' : Station σ} {lease : Lease} {pool : Pool} {frames : List Octets} :
    s.pool.takeReady? = some (lease, pool) →
    Drains ⟨s.engine.dispatch lease.contents, pool.giveBack lease⟩ frames s' →
    Drains s (lease.contents :: frames) s'

theorem Drains.engine (h : Drains s frames s') :
    s'.engine = frames.foldl Engine.dispatch s.engine := by
  induction h
  case done        => rfl
  case next _ _ ih => exact ih

-- A budget that is no less than what is ready does not cut the loop short.
theorem Drains.drainUpTo_eq (h : Drains s frames s') {budget : Nat} (hb : frames.length ≤ budget) :
    drainUpTo budget s = (frames.length, s') := by
  induction h generalizing budget
  case done hn => exact drainUpTo_of_empty budget hn
  case next ht _ ih =>
    obtain _ | budget := budget
    case zero => contradiction
    case succ =>
      rw [drainUpTo, ht]
      simp only [ih (Nat.le_of_succ_le_succ hb), List.length_cons]

-- By induction on what is ready.
theorem drains {c : Circulation} {lists : Stacks} {count : Nat} (h : c.Shows count lists)
    (hc : lists.slotCapacity ≠ 0) (e : Engine σ) :
    ∃ s', Drains ⟨e, c.pool⟩ (lists.ready.map Parcel.contents) s' ∧
      c.Drained count lists s'.pool := by
  induction hr : lists.ready generalizing c lists e
  case nil =>
    refine ⟨⟨e, c.pool⟩, .done (h.takeReady?_eq_none hr), ?_⟩
    constructor
    case shows    => exact (Stacks.drained_of_nil hr).symm ▸ h
    case freed    => simp [hr]
    case others   => simp
    case accepted => rfl
    case dropped  => rfl
  case cons x ready ih =>
    have ⟨lease, p, ht, hx, left⟩ := h.leaves hc hr
    have hi := h.index_takeReady? ht hr
    have ⟨slot, _, hs, hp⟩ := Pool.giveBack_takeReady? ht
    rw [hi] at hs hp
    have ⟨hlt, _⟩ := List.getElem?_eq_some_iff.mp hs
    have ⟨s', drains, drained⟩ := ih left hc (e.dispatch lease.contents) rfl
    have hl : (x.index :: ready.map Parcel.index).Nodup := by
      have hn := h.sound.kept.placed.nodup .ready
      rwa [Circulation.place, Stacks.listed, hr] at hn
    have hz : slot.storage.length = lists.slotCapacity := by
      obtain ⟨_, hs', _, hz, _⟩ := h.slot_of_ready (hr ▸ List.mem_cons_self)
      rw [hs] at hs'
      cases hs'
      exact hz
    refine ⟨s', ?_, ?_⟩
    · rw [List.map_cons, ← hx]
      exact .next ht drains
    constructor
    case shows => exact Stacks.drained_of_cons hr ▸ drained.shows
    case freed =>
      intro y hy
      rw [hr] at hy
      cases hy
      case head =>
        rw [drained.others _ (List.nodup_cons.mp hl).left, hp, hz]
        exact ⟨_, List.getElem?_set_self hlt⟩
      case tail hy => exact drained.freed y hy
    case others =>
      intro i hn
      rw [hr, List.map_cons, List.mem_cons, not_or] at hn
      rw [drained.others i hn.right, hp]
      exact List.getElem?_set_ne (Ne.symm hn.left)
    case accepted => rw [drained.accepted, hp]
    case dropped  => rw [drained.dropped, hp]

-- Draining handles every ready frame once, the one that was published last first, and leaves the
-- slots of these free and blank and all others as they are. A frame that comes when nothing else is
-- ready is handled as though it had not gone through the pool.
structure Empties (s : Station σ) (lists : Stacks) : Prop where
  loop    : s.Drains (lists.ready.map Parcel.contents) s.drain.2
  rounds  : lists.ready.length = s.pool.count .ready
  count   : s.drain.1 = s.pool.count .ready
  engine  : s.drain.2.engine = (lists.ready.map Parcel.contents).foldl Engine.dispatch s.engine
  ready   : (lists.ready.map Parcel.index).Perm (s.pool.slots.findIdxs (·.state = .ready))
  filled  : ∀ x ∈ lists.ready, ∃ slot, s.pool.slots[x.index]? = some slot ∧
    slot.storage.take slot.length = x.contents
  untaken : lists.published.Perm (lists.taken ++ lists.ready)
  order   : lists.ready.Sublist lists.published
  none    : ∀ i, s.drain.2.pool.stateOf? i ≠ some .ready
  freed   : ∀ i, s.pool.stateOf? i = some .ready → ∃ next,
    s.drain.2.pool.slots[i]? = some (.blank lists.slotCapacity next)
  others  : ∀ i, s.pool.stateOf? i ≠ some .ready →
    s.drain.2.pool.slots[i]? = s.pool.slots[i]?
  counted : s.drain.2.pool.accepted = s.pool.accepted ∧ s.drain.2.pool.dropped = s.pool.dropped
  passes  : ∀ raw : Octets, raw.length ≤ lists.slotCapacity → s.pool.count .free ≠ 0 →
    s.pool.count .ready = 0 → (s.receive raw).1 = .ok () ∧
      (s.receive raw).2.drain = (1, ⟨s.engine.dispatch raw, s.pool.countAccepted⟩)

theorem passes {c : Circulation} {lists : Stacks} {count : Nat} {raw : Octets}
    (h : c.Shows count lists) (tidy : c.pool.Tidy) (e : Engine σ)
    (hn : raw.length ≤ lists.slotCapacity) (hf : c.pool.count .free ≠ 0)
    (hr : lists.ready = []) :
    (receive ⟨e, c.pool⟩ raw).1 = .ok () ∧
      (receive ⟨e, c.pool⟩ raw).2.drain = (1, ⟨e.dispatch raw, c.pool.countAccepted⟩) := by
  have ⟨index, next, ht, hs⟩ := h.blank_of_free tidy hf
  rw [← h.sound.capacity] at hn hs
  have ⟨lease, p, hok, hc, hp, hx, he⟩ := Pool.giveBack_receive hn ht hs
  have empty : c.pool.countAccepted.takeReady? = none := h.countAccepted.takeReady?_eq_none hr
  have drains : Drains ⟨e, (c.pool.receive raw).2⟩ [lease.contents]
      ⟨e.dispatch lease.contents, p.giveBack lease⟩ := .next hp <| .done <| he ▸ empty
  rw [hx, he] at drains
  refine ⟨hok, drains.drainUpTo_eq ?_⟩
  have room : c.pool.capacity ≠ 0 := fun hz => hf <| Nat.eq_zero_of_le_zero <|
    hz ▸ List.countP_le_length
  exact hc ▸ Nat.one_le_iff_ne_zero.mpr room

theorem empties {c : Circulation} {lists : Stacks} {count : Nat} (h : c.Shows count lists)
    (hc : lists.slotCapacity ≠ 0) (balanced : lists.Balanced) (tidy : c.pool.Tidy)
    (e : Engine σ) : Empties ⟨e, c.pool⟩ lists := by
  have placed := h.sound.kept.placed
  have ⟨s', drains, drained⟩ := drains h hc e
  have hl : lists.ready.length = c.pool.count .ready := by
    rw [← placed.length_eq .ready]
    exact (List.length_map _).symm
  have hd : drain ⟨e, c.pool⟩ = (c.pool.count .ready, s') := by
    rw [← hl, ← List.length_map Parcel.contents]
    apply drains.drainUpTo_eq
    rw [List.length_map, hl]
    exact List.countP_le_length
  have mem_ready (i : Nat) : i ∈ lists.ready.map Parcel.index ↔
      c.pool.stateOf? i = some .ready := placed.mem_iff (s := .ready)
  constructor
  case loop   => rwa [hd]
  case rounds => exact hl
  case count  => rw [hd]
  case engine => rw [hd, drains.engine]
  case ready  => exact placed.perm_findIdxs .ready
  case filled =>
    intro x hx
    have ⟨slot, hs, _, _, hf⟩ := h.slot_of_ready hx
    exact ⟨slot, hs, hf⟩
  case untaken => exact balanced.delivered
  case order   => exact balanced.order
  case none =>
    intro i hi
    rw [hd, ← drained.shows.sound.kept.placed.mem_iff] at hi
    contradiction
  case freed =>
    intro i hi
    have ⟨x, hx, hi⟩ := List.mem_map.mp <| (mem_ready i).mpr hi
    rw [hd, ← hi]
    exact drained.freed x hx
  case others =>
    intro i hi
    rw [hd]
    exact drained.others i <| mt (mem_ready i).mp hi
  case counted =>
    rw [hd]
    exact ⟨drained.accepted, drained.dropped⟩
  case passes =>
    intro raw hn hf hr
    exact passes h tidy e hn hf <| List.eq_nil_of_length_eq_zero <| hl.trans hr

-- Whatever the producer and the consumer have done before, and whatever the engine is like.
theorem run_empties {count capacity : Nat} {p : Pool} (hp : Pool.makeWith count capacity = .ok p)
    (events : List Circulation.Event) (e : Engine σ) :
    let lists := (Stacks.fresh count capacity).run events
    lists.slotCapacity = capacity ∧
      Empties ⟨e, (Circulation.run { pool := p } events).pool⟩ lists := by
  have ⟨hn, hc⟩ := Pool.ne_zero_of_makeWith hp
  have tidy := Circulation.tidy_run (c := { pool := p }) (Pool.tidy_of_makeWith hp) events
  have capacity_eq : ((Stacks.fresh count capacity).run events).slotCapacity = capacity :=
    Stacks.slotCapacity_run ..
  rw [Pool.makeWith_eq hn hc] at hp
  cases hp
  refine ⟨capacity_eq, empties ((Circulation.shows_makeWith hn).run hc events) ?_ ?_ tidy e⟩
  · rwa [capacity_eq]
  · exact (Stacks.balanced_fresh ..).run events

-- A ping and what is no frame at all, with a third slot leased in between.
theorem run_empties_two :
    ∃ p, Pool.makeWith 4 30 = .ok p ∧
      let events := [.receive (Engine.Sample.frame .ping), .acquire 5, .receive [1, 2]]
      let s : Station Bench := ⟨Engine.Sample.idle, (Circulation.run { pool := p } events).pool⟩
      s.pool.census = ⟨1, 1, 2, 0⟩ ∧
      s.Drains [[1, 2], Engine.Sample.frame .ping] s.drain.2 ∧ s.drain.1 = 2 ∧
      s.Empties ((Stacks.fresh 4 30).run events) := by
  have hp := Pool.makeWith_eq (by decide : 4 ≠ 0) (by decide : 30 ≠ 0)
  have ⟨_, h⟩ := run_empties hp
    [.receive (Engine.Sample.frame .ping), .acquire 5, .receive [1, 2]] Engine.Sample.idle
  exact ⟨_, hp, by decide, h.loop, h.count, h⟩

end Station

end RemoteScreen
