import RemoteScreen.Proofs.Engine.Mainline
import RemoteScreen.Proofs.Engine.Surroundings

namespace RemoteScreen

-- No frame is in the pool, nor on its way in or out.
def Pool.AllFree (p : Pool) : Prop :=
  ∀ slot ∈ p.slots, slot.state = .free

instance (p : Pool) : Decidable p.AllFree :=
  inferInstanceAs <| Decidable <| ∀ slot ∈ p.slots, slot.state = .free

theorem Stacks.lease_of_cons {s : Stacks} {size index : Nat} {free : List Nat}
    (hs : size ≤ s.slotCapacity) (hf : s.free = index :: free) :
    s.lease size =
      .ok (⟨s.leases, index, Octets.zeros size⟩, { s with free, leases := s.leases + 1 }) := by
  rw [lease, if_neg (Nat.not_lt.mpr hs), hf]

namespace Circulation

variable {c : Circulation} {s : Stacks} {count : Nat}

theorem Shows.place_eq_nil (h : c.Shows count s) (free : c.pool.AllFree) {state : SlotState}
    (hn : state ≠ .free) : c.place s.listed state = [] := by
  rw [List.eq_nil_iff_forall_not_mem]
  intro i hm
  rw [h.sound.kept.placed.mem_iff, Pool.stateOf?, Option.map_eq_some_iff] at hm
  obtain ⟨slot, hs, ht⟩ := hm
  exact hn <| ht.symm.trans <| free slot <| List.mem_of_getElem? hs

theorem Shows.ready_eq_nil (h : c.Shows count s) (free : c.pool.AllFree) : s.ready = [] := by
  have hp : c.place s.listed .ready = [] := h.place_eq_nil free (by decide)
  exact List.map_eq_nil_iff.mp hp

theorem Shows.held_eq_nil (h : c.Shows count s) (free : c.pool.AllFree) (holder : Holder) :
    c.held holder = [] := by
  have hp : c.place s.listed holder.state = [] := h.place_eq_nil free (by cases holder <;> decide)
  rw [place_holder] at hp
  exact List.map_eq_nil_iff.mp hp

theorem Shows.allFree (h : c.Shows count s) (hr : s.ready = [])
    (hh : ∀ holder, c.held holder = []) : c.pool.AllFree := by
  intro slot hs
  have ⟨i, hi⟩ := List.getElem?_of_mem hs
  have hm : i ∈ c.place s.listed slot.state := by
    rw [h.sound.kept.placed.mem_iff, Pool.stateOf?, hi, Option.map_some]
  cases ht : slot.state <;> rw [ht] at hm
  case ready   => simp [place, Stacks.listed, hr] at hm
  case pending => simp [place, leased, hh] at hm
  case inUse   => simp [place, leased, hh] at hm

theorem Shows.free_ne_nil (h : c.Shows count s) (hn : count ≠ 0) (free : c.pool.AllFree) :
    s.free ≠ [] := by
  have hl : 0 < c.pool.slots.length := h.sound.count ▸ Nat.pos_of_ne_zero hn
  have hm : 0 ∈ c.place s.listed .free := by
    rw [h.sound.kept.placed.mem_iff, Pool.stateOf?, List.getElem?_eq_getElem hl, Option.map_some,
      free _ (List.getElem_mem hl)]
  exact List.ne_nil_of_mem hm

theorem Shows.takeReady?_eq_none (h : c.Shows count s) (hr : s.ready = []) :
    c.pool.takeReady? = none := by
  obtain ⟨hn, -⟩ | ⟨_, _, _, _, -, ht, -⟩ := h.takeReady_cases
  case inl => exact hn
  case inr =>
    rw [Stacks.take?_eq_none_iff.mpr hr] at ht
    contradiction

-- A frame comes into the slot on top of the free ones.
theorem Shows.arrives {index : Nat} {free : List Nat} {frame : Octets} (h : c.Shows count s)
    (hf : s.free = index :: free) (hl : frame.length ≤ s.slotCapacity) :
    (c.pool.receive frame).1 = .ok () ∧ Shows { c with pool := (c.pool.receive frame).2 } count
      ({ s with free, leases := s.leases + 1 }.publish ⟨s.leases, index, frame⟩) := by
  have hs := Stacks.lease_of_cons hl hf
  have hr := h.receive frame
  rw [Circulation.step, Stacks.step, hs] at hr
  refine ⟨?_, hr⟩
  have ha := h.answer_eq (.receive frame)
  rw [Circulation.answer, Stacks.answer, hs] at ha
  generalize (c.pool.receive frame).1 = outcome at ha
  cases outcome
  case error => contradiction
  case ok    => rfl

-- The frame on top of those that are ready goes to the consumer, who frees its slot.
theorem Shows.leaves {x : Parcel} {ready : List Parcel} (h : c.Shows count s)
    (hc : s.slotCapacity ≠ 0) (hr : s.ready = x :: ready) :
    ∃ lease p, c.pool.takeReady? = some (lease, p) ∧ lease.contents = x.contents ∧
      Shows { c with pool := p.giveBack lease } count
        { s with ready, taken := x :: s.taken, free := x.index :: s.free } := by
  obtain ⟨-, hn⟩ | ⟨lease, p, y, s', hp, ht, hv, hs⟩ := h.takeReady_cases
  case inl =>
    rw [Stacks.take?_eq_none_iff.mp hn] at hr
    contradiction
  case inr =>
    obtain ⟨ready', hy, rfl⟩ := Stacks.take?_eq_some ht
    obtain ⟨rfl, rfl⟩ := List.cons.inj (hr.symm.trans hy)
    injection hv with _ hx
    refine ⟨lease, p, hp, hx, ?_⟩
    have released := hs.step hc (.release 0)
    rw [Circulation.step, Stacks.step] at released
    exact released

end Circulation

namespace Station

variable {σ : Type} [Host σ] {s : Station σ} {frame : Octets}

-- The stations that can come about while no lease is out, if their slots hold whole frames.
structure Reachable (s : Station σ) : Prop where
  mainline : s.mainline.Reachable
  capacity : s.pool.slotCapacity = maxFrameLength

theorem reachable_of_make {config : EngineConfig} {host : σ} {e : Engine σ} {count : Nat} {p : Pool}
    (he : Engine.make config host = .ok e) (hp : Pool.make count = .ok p) :
    Reachable ⟨e, p⟩ where
  mainline := .start he hp
  capacity := (Mainline.shows_start hp e).right.sound.capacity

-- Whatever the mainline was in the middle of, no lease is out once all slots are free.
theorem reachable_of_mainline {m : Mainline σ} (h : m.Reachable) (free : m.circulation.pool.AllFree)
    (hc : m.circulation.pool.slotCapacity = maxFrameLength) :
    Reachable ⟨m.engine, m.circulation.pool⟩ where
  mainline := by
    have ⟨_, _, _, shows⟩ := h.shows
    obtain ⟨_, _, pending, inUse⟩ := m
    obtain rfl : pending = [] := shows.held_eq_nil free .producer
    obtain rfl : inUse = [] := shows.held_eq_nil free .consumer
    exact h
  capacity := hc

theorem Reachable.engine (h : s.Reachable) : s.engine.Reachable :=
  h.mainline.engine

theorem Reachable.step (h : s.Reachable) (event : Event σ) : (s.step event).Reachable := by
  have ⟨events, hs⟩ := s.step_mainline event
  constructor
  case mainline => exact hs ▸ h.mainline.run events
  case capacity =>
    have hp : (s.step event).pool = (s.mainline.run events).circulation.pool :=
      congrArg (·.circulation.pool) hs
    rw [hp, h.mainline.slotCapacity_run]
    exact h.capacity

theorem Reachable.run (h : s.Reachable) (events : List (Event σ)) : (s.run events).Reachable := by
  induction events generalizing s
  case nil             => exact h
  case cons event _ hi => exact hi (h.step event)

-- What the pool of a station shows, whose slots are as many as there were and hold a whole frame.
structure Pooled (s : Station σ) (count : Nat) (lists : Stacks) : Prop where
  shows    : s.mainline.circulation.Shows count lists
  count    : count ≠ 0
  capacity : lists.slotCapacity = maxFrameLength

theorem Reachable.pooled (h : s.Reachable) : ∃ count lists, s.Pooled count lists :=
  have ⟨count, lists, hn, _, hs⟩ := h.mainline.pooled
  ⟨count, lists, hs, hn, hs.sound.capacity.symm.trans h.capacity⟩

theorem drainUpTo_of_empty (budget : Nat) (h : s.pool.takeReady? = none) :
    drainUpTo budget s = (0, s) := by
  cases budget
  case zero => rfl
  case succ => rw [drainUpTo, h]

theorem drainUpTo_of_single {lease : Lease} {p : Pool}
    (h : s.pool.takeReady? = some (lease, p)) (he : (p.giveBack lease).takeReady? = none)
    (budget : Nat) :
    drainUpTo (budget + 1) s =
      (1, ⟨s.engine.dispatch lease.contents, p.giveBack lease⟩) := by
  rw [drainUpTo, h]
  simp only [drainUpTo_of_empty budget (s := ⟨_, p.giveBack lease⟩) he]

-- The frame comes in and is handled at once.
def attend (s : Station σ) (frame : Octets) : Station σ :=
  (s.receive frame).2.drain.2

theorem Reachable.attend (h : s.Reachable) (frame : Octets) : (s.attend frame).Reachable :=
  h.run [.receive frame, .drain]

-- A frame that finds all slots free goes through one of them, and leaves it free.
theorem attends (h : s.Reachable) (free : s.pool.AllFree) (hl : frame.length ≤ maxFrameLength) :
    (s.receive frame).1 = .ok () ∧ ∃ pool, pool.AllFree ∧
      (s.receive frame).2.drain = (1, ⟨s.engine.dispatch frame, pool⟩) := by
  have ⟨count, lists, shows, hn, hc⟩ := h.pooled
  have ⟨index, rest, hf⟩ := List.exists_cons_of_ne_nil <| shows.free_ne_nil hn free
  have ⟨hok, arrived⟩ := shows.arrives hf (hc ▸ hl)
  have ⟨lease, p, ht, hx, gone⟩ := arrived.leaves (hc ▸ by decide) rfl
  have hr : lists.ready = [] := shows.ready_eq_nil free
  have empty : (p.giveBack lease).takeReady? = none := gone.takeReady?_eq_none hr
  have room : (s.receive frame).2.pool.capacity = count - 1 + 1 :=
    arrived.sound.count.trans (Nat.succ_pred_eq_of_ne_zero hn).symm
  refine ⟨hok, p.giveBack lease, gone.allFree hr (by rintro ⟨⟩ <;> rfl), ?_⟩
  rw [drain, room, drainUpTo_of_single ht empty, hx]
  rfl

-- A frame that is too long for the slots is turned away.
theorem attend_of_long (h : s.Reachable) (free : s.pool.AllFree)
    (hl : maxFrameLength < frame.length) :
    s.attend frame = { s with pool := s.pool.countDropped } := by
  have ⟨count, lists, shows, hn, hc⟩ := h.pooled
  have hs : s.pool.slotCapacity = maxFrameLength := shows.sound.capacity.trans hc
  have hr : s.receive frame = (.error (.frameTooLarge frame.length s.pool.slotCapacity),
      { s with pool := s.pool.countDropped }) := by
    rw [receive, Pool.receive, Pool.acquire, if_pos (hs ▸ hl)]
  have empty : s.pool.countDropped.takeReady? = none :=
    shows.countDropped.takeReady?_eq_none (shows.ready_eq_nil free)
  rw [attend, hr]
  exact congrArg Prod.snd <| drainUpTo_of_empty _ empty

theorem attend_cases (h : s.Reachable) (free : s.pool.AllFree) (frame : Octets) :
    (s.attend frame).pool.AllFree ∧
      ((s.attend frame).engine = s.engine.dispatch frame ∨ (s.attend frame).engine = s.engine) := by
  by_cases hl : frame.length ≤ maxFrameLength
  case pos =>
    have ⟨_, pool, hp, hd⟩ := attends h free hl
    rw [attend, hd]
    exact ⟨hp, .inl rfl⟩
  case neg =>
    rw [attend_of_long h free (Nat.lt_of_not_le hl)]
    exact ⟨free, .inr rfl⟩

theorem continues_attend (h : s.Reachable) (free : s.pool.AllFree) (frame : Octets) :
    s.engine.Continues (s.attend frame).engine := by
  obtain ⟨-, he | he⟩ := attend_cases h free frame <;> rw [he]
  case inl => exact s.engine.continues_dispatch frame
  case inr => exact .refl _

end Station

end RemoteScreen
