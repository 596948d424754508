import RemoteScreen.Proofs.Keyboard.Order

namespace RemoteScreen

namespace Engine

variable {σ : Type} [Host σ] {e : Engine σ} {s : Session} {raw : Octets} {event : Event σ}
  {events : List (Event σ)}

-- The frame names the session, and the table has room for it or has it already.
structure Starts (e : Engine σ) (raw : Octets) (s : Session) : Prop where
  named : ∃ frame, e.Admits raw .sessionStart frame ∧ s.isNamed frame.source frame.nonce
  now   : s.lastActivity = Host.now e.host
  taken : ∃ started sessions,
    e.sessions.start s.identity s.nonce s.lastActivity = .ok (started, sessions)

-- The session that is started or refreshed in an event, if one is.
def starts? (e : Engine σ) : Event σ → Option Session
  | .dispatch raw =>
    (e.start? raw).map fun (_, frame, _) => ⟨frame.source, frame.nonce, Host.now e.host⟩
  | _ => none

def started (e : Engine σ) : List (Event σ) → List Session
  | [] => []
  | event :: rest => (e.starts? event).toList ++ started (e.step event) rest

-- The session goes through the events as it is: it is not started again, and no tick finds that it
-- has been idle for too long.
structure Lasts (e : Engine σ) (events : List (Event σ)) (s : Session) : Prop where
  latest : ∀ s' ∈ e.started events, ¬ s'.isNamed s.identity s.nonce
  fresh  : ∀ x ∈ e.ticked events, ¬ s.isExpired (Host.now x.host) x.config.sessionLifetime

-- The session goes back to a frame that was handled.
structure Backs (e : Engine σ) (before : List (Event σ)) (start : Octets) (since : List (Event σ))
    (s : Session) : Prop where
  starts : (e.run before).Starts start s
  lasts  : (e.run (before ++ [.dispatch start])).Lasts since s

theorem started_append (e : Engine σ) (xs ys : List (Event σ)) :
    e.started (xs ++ ys) = e.started xs ++ (e.run xs).started ys := by
  induction xs generalizing e
  case nil => rfl
  case cons event rest hi =>
    rw [List.cons_append, started, started, hi, List.append_assoc]
    rfl

theorem Lasts.nil (e : Engine σ) (s : Session) : e.Lasts [] s :=
  ⟨nofun, nofun⟩

theorem Lasts.append {xs ys : List (Event σ)} (h : e.Lasts xs s) (h' : (e.run xs).Lasts ys s) :
    e.Lasts (xs ++ ys) s where
  latest s' hs := by
    rw [started_append, List.mem_append] at hs
    exact hs.elim (h.latest s') (h'.latest s')
  fresh x hx := by
    rw [ticked_append, List.mem_append] at hx
    exact hx.elim (h.fresh x) (h'.fresh x)

theorem start?_eq_some {started : SessionTable.Started} {frame : Received}
    {sessions : SessionTable} :
    e.start? raw = some (started, frame, sessions) ↔
      e.Admits raw .sessionStart frame ∧
      e.sessions.start frame.source frame.nonce (Host.now e.host) = .ok (started, sessions) := by
  rw [admits_iff, start?]
  constructor
  case mp =>
    intro h
    split at h
    case h_2 => contradiction
    case h_1 ha =>
      split at h
      case h_2 => contradiction
      case h_1 hs =>
        cases h
        exact ⟨ha, hs⟩
  case mpr =>
    intro h
    simp only [h.left, h.right]

theorem starts?_eq_some : e.starts? (.dispatch raw) = some s ↔ e.Starts raw s := by
  rw [starts?, Option.map_eq_some_iff]
  constructor
  case mp =>
    intro ⟨⟨started, frame, sessions⟩, h, hs⟩
    have ⟨ha, ht⟩ := start?_eq_some.mp h
    subst hs
    exact ⟨⟨frame, ha, Session.isNamed_iff.mpr ⟨rfl, rfl⟩⟩, rfl, started, sessions, ht⟩
  case mpr =>
    intro ⟨⟨frame, ha, hn⟩, hl, started, sessions, ht⟩
    have ⟨hi, hn⟩ := Session.isNamed_iff.mp hn
    rw [hi, hn, hl] at ht
    refine ⟨⟨started, frame, sessions⟩, start?_eq_some.mpr ⟨ha, ht⟩, ?_⟩
    simp only [← hi, ← hn, ← hl]

theorem sessions_dispatch_of_some {started : SessionTable.Started} {frame : Received}
    {sessions : SessionTable} (h : e.start? raw = some (started, frame, sessions)) :
    (e.dispatch raw).sessions = sessions := by
  refine (congrArg Control.sessions <| e.dispatch_control raw).trans ?_
  rw [h]
  cases started <;> rfl

theorem sessions_dispatch_of_none (h : e.start? raw = none) :
    (e.dispatch raw).sessions = e.sessions := by
  refine (congrArg Control.sessions <| e.dispatch_control raw).trans ?_
  rw [h]
  rfl

theorem distinct_step (hd : e.sessions.Distinct) (event : Event σ) :
    (e.step event).sessions.Distinct := by
  cases event
  case change => exact hd
  case tick =>
    rw [step, e.spares_tick.sessions]
    exact hd.reap
  case dispatch raw =>
    rw [step]
    cases h : e.start? raw
    case none => exact sessions_dispatch_of_none h ▸ hd
    case some start =>
      obtain ⟨_, frame, sessions⟩ := start
      exact sessions_dispatch_of_some h ▸ hd.start (start?_eq_some.mp h).right

theorem distinct_run (hd : e.sessions.Distinct) (events : List (Event σ)) :
    (e.run events).sessions.Distinct := by
  induction events generalizing e
  case nil             => exact hd
  case cons event _ hi => exact hi <| distinct_step hd event

-- What is in the table after an event was put there by it, or was there and has lasted.
theorem mem_active_step (hd : e.sessions.Distinct) (hs : s ∈ (e.step event).sessions.active) :
    e.starts? event = some s ∨ s ∈ e.sessions.active ∧ e.Lasts [event] s := by
  cases event
  case change => exact .inr ⟨hs, nofun, nofun⟩
  case tick =>
    rw [step, e.spares_tick.sessions] at hs
    have ⟨hm, hx⟩ := SessionTable.mem_active_reap.mp hs
    exact .inr ⟨hm, nofun, fun x h => (List.mem_singleton.mp h) ▸ hx⟩
  case dispatch raw =>
    rw [step] at hs
    cases h : e.start? raw
    case none =>
      rw [sessions_dispatch_of_none h] at hs
      refine .inr ⟨hs, ?_, nofun⟩
      simp [started, starts?, h]
    case some start =>
      obtain ⟨_, frame, sessions⟩ := start
      rw [sessions_dispatch_of_some h] at hs
      cases SessionTable.mem_active_start hd (start?_eq_some.mp h).right hs
      case inl he => exact .inl <| by rw [starts?, h, he]; rfl
      case inr ho =>
        refine .inr ⟨ho.left, ?_, nofun⟩
        simp only [started, starts?, h, Option.map_some, Option.toList_some, List.append_nil,
          List.mem_singleton, forall_eq, Session.isNamed_iff] at ho ⊢
        exact fun hn => ho.right ⟨hn.left.symm, hn.right.symm⟩

-- By induction on the events from the last one back. Whatever the last event leaves in the table
-- goes back to that event, or else to where it went back to before.
theorem backs_of_mem_active (h : e.sessions.active = [])
    (hs : s ∈ (e.run events).sessions.active) :
    ∃ before start since, events = before ++ .dispatch start :: since ∧
      e.Backs before start since s := by
  induction events using List.reverseRecOn
  case nil =>
    change s ∈ e.sessions.active at hs
    rw [h] at hs
    contradiction
  case append_singleton events event hi =>
    have hd : (e.run events).sessions.Distinct :=
      distinct_run (SessionTable.distinct_of_active_eq_nil h) events
    rw [run_append] at hs
    cases mem_active_step hd hs
    case inl hn =>
      cases event
      case dispatch raw => exact ⟨events, raw, [], rfl, starts?_eq_some.mp hn, .nil ..⟩
      all_goals contradiction
    case inr ho =>
      have ⟨hm, hl⟩ := ho
      have ⟨before, start, since, he, hb⟩ := hi hm
      refine ⟨before, start, since ++ [event], ?_, hb.starts, hb.lasts.append ?_⟩
      case refine_1 => rw [he, List.append_assoc, List.cons_append]
      case refine_2 =>
        rw [← run_append, List.append_assoc, List.singleton_append, ← he]
        exact hl

-- Where the `n`-th of the keys comes from that are typed in the course of the events.
structure Origin (e : Engine σ) (events : List (Event σ)) (n : Nat) (i : Injection) where
  before  : List (Event σ)
  -- The frame that the session goes back to.
  opening : Octets
  since   : List (Event σ)
  -- The frame that asks for the key.
  asking  : Octets
  after   : List (Event σ)
  session : Session
  frame   : Received
  place   : Nat
  order   : events = before ++ .dispatch opening :: (since ++ .dispatch asking :: after)
  backs   : e.Backs before opening since session
  named   : session.isNamed frame.source frame.nonce
  yields  : (e.run (before ++ .dispatch opening :: since)).Yields asking frame place i
  count   : n = (e.pressed (before ++ .dispatch opening :: since)).length + place

-- Keys are typed for nobody but those who have a session, and sessions go back to a frame.
theorem exists_origin (h : e.sessions.active = []) {n : Nat} {i : Injection}
    (hi : (e.pressed events)[n]? = some i) : Nonempty (e.Origin events n i) := by
  have ⟨front, event, after, place, order, count, hp⟩ := pressed_in_event hi
  have ⟨asking, frame, hd, yields⟩ := yields_of_pressed hp
  have ⟨session, hs⟩ := Option.isSome_iff_exists.mp yields.asks.live
  have ⟨hm, named⟩ := SessionTable.mem_of_find? hs
  have ⟨before, opening, since, hb, backs⟩ := backs_of_mem_active h hm
  subst hd hb
  rw [List.append_assoc, List.cons_append] at order
  exact ⟨⟨before, opening, since, asking, after, session, frame, place, order, backs, named,
    yields, count⟩⟩

theorem Origin.dispatched {n : Nat} {i : Injection} (o : e.Origin events n i) :
    o.opening ∈ dispatched events ∧ o.asking ∈ dispatched events := by
  have order := congrArg Engine.dispatched o.order
  rw [order]
  simp [Engine.dispatched]

end Engine

namespace Mainline

variable {σ : Type} [Host σ] {e : Engine σ} {p : Pool} {count capacity : Nat}

theorem keys_authorised (h : e.sessions.active = []) (hp : Pool.makeWith count capacity = .ok p)
    {events : List (Event σ)} {typed : List Injection}
    (ht : e.Types typed ((start e p).run events).engine) {n : Nat} {i : Injection}
    (hi : typed[n]? = some i) :
    ∃ o : e.Origin ((start e p).acts events) n i,
      o.opening ∈ received events ∧ o.asking ∈ received events := by
  have ⟨hc, hs⟩ := shows_start hp e
  have lifo : Lifo [] ((start e p).moves events) := lifo_moves hs hc events
  rw [engine_run] at ht
  have ht : e.Types typed (e.run ((start e p).acts events)) := ht
  rw [← ht.pressed] at hi
  have ⟨o⟩ := Engine.exists_origin h hi
  have ⟨opening, asking⟩ := o.dispatched
  exact ⟨o, received_of_dispatched lifo opening, received_of_dispatched lifo asking⟩

-- A key that is typed after a tick.
theorem keys_authorised_bench :
    ∃ pool, Pool.make 2 = .ok pool ∧
      let m : Mainline Bench := start Engine.Sample.idle pool
      let events : List (Event Bench) :=
        [.receive (Engine.Sample.frame .sessionStart), .take, .release, .tick,
          .receive (Engine.Sample.keyFrame [.plain 98]), .take, .release]
      ∃ i, i.key = .plain 98 ∧
        ∃ o : Engine.Sample.idle.Origin (m.acts events) 0 i,
          o.opening ∈ received events ∧ o.asking ∈ received events := by
  have hp := Pool.makeWith_eq (by decide : 2 ≠ 0) (by decide : maxFrameLength ≠ 0)
  refine ⟨_, hp, ?_⟩
  intro m events
  have hk : (m.run events).engine.journal.injections[0]?.map Injection.key
      = some (.plain 98) := by
    decide +kernel
  have ht : Engine.Sample.idle.Types (m.run events).engine.journal.injections
      (m.run events).engine :=
    (List.nil_append _).symm
  have ⟨i, hi, hk⟩ := Option.map_eq_some_iff.mp hk
  exact ⟨i, hk, keys_authorised rfl hp ht hi⟩

end Mainline

end RemoteScreen
