import RemoteScreen.Engine.Mainline
import RemoteScreen.Engine.Station
import RemoteScreen.Proofs.Engine.Run
import RemoteScreen.Proofs.Pool.Refinement

namespace RemoteScreen

namespace Mainline

variable {σ : Type} [Host σ] {m : Mainline σ}

theorem run_append (m : Mainline σ) (xs ys : List (Event σ)) :
    m.run (xs ++ ys) = (m.run xs).run ys :=
  List.foldl_append

theorem engine_step (m : Mainline σ) (event : Event σ) :
    (m.step event).engine = m.engine.run (m.act? event).toList := by
  cases event
  case take =>
    rw [step, act?]
    cases m.circulation.pool.takeReady? <;> rfl
  all_goals rfl

-- The engine goes through what it takes part in, and nothing else.
theorem engine_run (m : Mainline σ) (events : List (Event σ)) :
    (m.run events).engine = m.engine.run (m.acts events) := by
  induction events generalizing m
  case nil => rfl
  case cons event rest hi =>
    have hr : (m.step event).engine.run ((m.step event).acts rest)
        = m.engine.run ((m.act? event).toList ++ (m.step event).acts rest) := by
      rw [engine_step, Engine.run, Engine.run, Engine.run, List.foldl_append]
    exact (hi _).trans hr

-- What an event does to the pool.
def poolEvent? : Event σ → Option Circulation.Event
  | .receive frame => some (.receive frame)
  | .take => some .takeReady
  | .release => some (.release 0)
  | .tick | .change _ => none

omit [Host σ] in
theorem step_takeReady_of_none {c : Circulation} (h : c.pool.takeReady? = none) :
    c.step .takeReady = c := by
  rw [Circulation.step, h]

theorem circulation_step (m : Mainline σ) (event : Event σ) :
    (m.step event).circulation = m.circulation.run (poolEvent? event).toList := by
  cases event
  case take =>
    rw [step]
    split
    case h_1 ht => exact (step_takeReady_of_none ht).symm
    case h_2    => rfl
  all_goals rfl

theorem circulation_run (m : Mainline σ) (events : List (Event σ)) :
    (m.run events).circulation = m.circulation.run (events.filterMap poolEvent?) := by
  induction events generalizing m
  case nil => rfl
  case cons event rest hi =>
    refine (hi _).trans ?_
    rw [circulation_step]
    cases hp : poolEvent? event
    case none => rw [List.filterMap_cons_none hp]; rfl
    case some => rw [List.filterMap_cons_some hp]; rfl

-- The stations that can come about.
inductive Reachable : Mainline σ → Prop
  | start {config : EngineConfig} {host : σ} {e : Engine σ} {count capacity : Nat} {p : Pool} :
    Engine.make config host = .ok e → Pool.makeWith count capacity = .ok p →
    Reachable (start e p)
  | step {m : Mainline σ} (event : Event σ) : Reachable m → Reachable (m.step event)

theorem Reachable.run (h : m.Reachable) (events : List (Event σ)) : (m.run events).Reachable := by
  induction events generalizing m
  case nil             => exact h
  case cons event _ hi => exact hi (h.step event)

omit [Host σ] in
theorem shows_start {count capacity : Nat} {p : Pool} (hp : Pool.makeWith count capacity = .ok p)
    (e : Engine σ) :
    capacity ≠ 0 ∧ (start e p).circulation.Shows count (.fresh count capacity) := by
  have ⟨hn, hc⟩ := Pool.ne_zero_of_makeWith hp
  rw [Pool.makeWith_eq hn hc] at hp
  cases hp
  exact ⟨hc, Circulation.shows_makeWith hn⟩

theorem Reachable.engine (h : m.Reachable) : m.engine.Reachable := by
  induction h
  case start he _    => exact .make he
  case step event _ hi => exact engine_step _ event ▸ hi.run _

theorem Reachable.pooled (h : m.Reachable) :
    ∃ count s, count ≠ 0 ∧ s.slotCapacity ≠ 0 ∧ m.circulation.Shows count s := by
  induction h
  case start e count capacity _ _ hp =>
    exact ⟨count, .fresh count capacity, (Pool.ne_zero_of_makeWith hp).left, shows_start hp e⟩
  case step m event _ hi =>
    have ⟨count, s, hn, hc, hs⟩ := hi
    rw [circulation_step]
    exact ⟨count, _, hn, s.slotCapacity_run _ ▸ hc, hs.run hc _⟩

theorem Reachable.shows (h : m.Reachable) :
    ∃ count s, s.slotCapacity ≠ 0 ∧ m.circulation.Shows count s :=
  have ⟨count, s, _, hs⟩ := h.pooled
  ⟨count, s, hs⟩

theorem Reachable.slotCapacity_run (h : m.Reachable) (events : List (Event σ)) :
    (m.run events).circulation.pool.slotCapacity = m.circulation.pool.slotCapacity := by
  have ⟨_, s, hc, hs⟩ := h.shows
  rw [circulation_run, (hs.run hc _).sound.capacity, hs.sound.capacity, s.slotCapacity_run]

end Mainline

namespace Station

variable {σ : Type} [Host σ]

def mainline (s : Station σ) : Mainline σ :=
  .start s.engine s.pool

-- Draining is taking a frame and freeing its buffer, over and over.
theorem drainUpTo_mainline (budget : Nat) (s : Station σ) :
    ∃ events, (drainUpTo budget s).2.mainline = s.mainline.run events := by
  induction budget generalizing s
  case zero => exact ⟨[], rfl⟩
  case succ budget hi =>
    rw [drainUpTo]
    split
    case h_1 => exact ⟨[], rfl⟩
    case h_2 lease pool ht =>
      have ⟨events, he⟩ := hi ⟨s.engine.dispatch lease.contents, pool.giveBack lease⟩
      refine ⟨.take :: .release :: events, he.trans ?_⟩
      have hs : (s.mainline.step .take).step .release
          = mainline ⟨s.engine.dispatch lease.contents, pool.giveBack lease⟩ := by
        rw [mainline, Mainline.start]
        simp only [Mainline.step, ht, Circulation.step]
        simp only [Circulation.finish, Circulation.held]
        rfl
      rw [← hs]
      rfl

theorem step_mainline (s : Station σ) (event : Event σ) :
    ∃ events, (s.step event).mainline = s.mainline.run events := by
  cases event
  case receive frame => exact ⟨[.receive frame], rfl⟩
  case drain         => exact drainUpTo_mainline ..
  case tick          => exact ⟨[.tick], rfl⟩
  case change host   => exact ⟨[.change host], rfl⟩

-- A station that drains in one go is one whose mainline happens not to be interrupted.
theorem run_mainline (s : Station σ) (events : List (Event σ)) :
    ∃ steps, (s.run events).mainline = s.mainline.run steps := by
  induction events generalizing s
  case nil => exact ⟨[], rfl⟩
  case cons event _ hi =>
    have ⟨xs, hx⟩ := s.step_mainline event
    have ⟨ys, hy⟩ := hi (s.step event)
    refine ⟨xs ++ ys, hy.trans ?_⟩
    rw [hx, Mainline.run_append]

end Station

end RemoteScreen
